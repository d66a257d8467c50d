import EntityQuery.Proofs.Clauses.NormalForm
import EntityQuery.Proofs.SelectList.Slices

/-!
# Texts that make up a normal form

A text is tight if it has no blanks outside its literals (`Tight`), and bare if it has neither
blanks nor quotation marks (`Bare`). A text is solid if it is in normal form, closes its literals,
is not empty and has no blanks at its ends (`Solid`). A tight text is solid if it closes its
literals and is not empty (`Solid.of_tight`).

Solid texts make up solid texts: one behind the other (`Solid.append`), with a space between them
(`Solid.spaced`), and any number of them with a comma or a space between neighbours
(`solid_joinChars`).
-/

set_option autoImplicit false

namespace EntityQuery.Query

open Text (isBlank joinChars)

variable {open_ : Option Char} {text more : List Char}

/-! ## Bare texts -/

/-- A text without blanks and quotation marks. -/
def Bare (text : List Char) : Prop :=
  ∀ c ∈ text, isBlank c = false ∧ isQuote c = false

instance (text : List Char) : Decidable (Bare text) :=
  List.decidableBAll _ text

theorem Bare.append (bare : Bare text) (bareToo : Bare more) : Bare (text ++ more) := by
  intro c member
  rcases List.mem_append.mp member with first | later
  · exact bare c first
  · exact bareToo c later

/-- A bare text opens and closes nothing. -/
theorem Bare.afterText_eq (bare : Bare text) (marks : ∀ mark ∈ open_, isQuote mark = true) :
    afterText open_ text = open_ :=
  afterText_of_noQuotes marks
    (List.any_eq_false.mpr fun c member => Bool.eq_false_iff.mp (bare c member).2)

/-! ## Tight texts -/

/-- A text without blanks outside its literals, with a quotation mark open before it. -/
inductive Tight : Option Char → List Char → Prop where
  | nil (open_ : Option Char) : Tight open_ []
  | cons {open_ : Option Char} {c : Char} {rest : List Char}
      (visible : open_ = none → isBlank c = false)
      (others : Tight (afterChar open_ c) rest) : Tight open_ (c :: rest)

theorem tight_append_iff :
    Tight open_ (text ++ more) ↔ Tight open_ text ∧ Tight (afterText open_ text) more := by
  induction text generalizing open_ with
  | nil => exact ⟨fun tight => ⟨.nil _, tight⟩, And.right⟩
  | cons c rest ih =>
      constructor
      · intro tight
        cases tight with
        | cons visible others =>
            obtain ⟨first, second⟩ := ih.mp others
            exact ⟨.cons visible first, second⟩
      · rintro ⟨tight, others⟩
        cases tight with
        | cons visible inner => exact .cons visible (ih.mpr ⟨inner, others⟩)

/-- A text without any blanks is tight. -/
theorem tight_of_visible (visible : ∀ c ∈ text, isBlank c = false) : Tight open_ text := by
  induction text generalizing open_ with
  | nil => exact .nil _
  | cons c rest ih =>
      exact .cons (fun _ => visible c List.mem_cons_self) (ih fun d member =>
        visible d (List.mem_cons_of_mem _ member))

theorem Bare.tight (bare : Bare text) : Tight open_ text :=
  tight_of_visible fun c member => (bare c member).1

/-- An item of a select list is tight. -/
theorem tight_dropBlanks (open_ : Option Char) (text : List Char) :
    Tight open_ (dropBlanks open_ text) := by
  induction text generalizing open_ with
  | nil => cases open_ <;> exact .nil _
  | cons c rest ih =>
      cases open_ with
      | some quote => exact .cons nofun (ih _)
      | none =>
          rw [dropBlanks]
          split
          · exact ih none
          · next notBlank => exact .cons (fun _ => Bool.eq_false_iff.mpr notBlank) (ih _)

/-- A separator that is neither a blank nor a quotation mark changes nothing between tight texts:
what is open behind the joined texts, and whether they are tight, is as if they stood one behind the
other. -/
theorem joined_iff_flatten {separator : Char} (bare : Bare [separator]) (texts : List (List Char))
    (marks : ∀ mark ∈ open_, isQuote mark = true) :
    afterText open_ (joinChars separator texts) = afterText open_ texts.flatten ∧
      (Tight open_ (joinChars separator texts) ↔ Tight open_ texts.flatten) := by
  induction texts generalizing open_ with
  | nil => exact ⟨rfl, Iff.rfl⟩
  | cons text rest ih =>
      have marksAfter := isQuote_of_afterText marks text
      obtain ⟨after, tight⟩ := ih marksAfter
      cases rest with
      | nil =>
          rw [joinChars, List.flatten_cons, List.flatten_nil, List.append_nil]
          exact ⟨rfl, Iff.rfl⟩
      | cons next others =>
          have step := bare.afterText_eq marksAfter
          rw [joinChars, ← List.singleton_append, List.flatten_cons, afterText_append,
            afterText_append, afterText_append, tight_append_iff, tight_append_iff,
            tight_append_iff, step, after, tight]
          exact ⟨rfl, ⟨fun both => ⟨both.1, both.2.2⟩, fun both => ⟨both.1, bare.tight, both.2⟩⟩⟩

/-! ## Normal forms put together -/

/-- **A text in normal form behind another.** -/
theorem Normal.append {gap : Gap} (normal : Normal gap open_ text)
    (others : Normal (gapAfter gap open_ text) (afterText open_ text) more) :
    Normal gap open_ (text ++ more) := by
  induction normal with
  | nil => exact others
  | inside _ ih => exact .inside (ih others)
  | space _ ih => exact .space (ih others)
  | char notBlank _ ih =>
      rw [gapAfter_cons, notBlank] at others
      exact .char notBlank (ih others)

/-- What may stand behind a space may stand at the start. -/
theorem Normal.of_pending (normal : Normal .pending none text) (gap : Gap) :
    Normal gap none text := by
  cases normal with
  | nil settled => exact absurd rfl settled
  | char notBlank others => exact .char notBlank others

/-- A tight text is in normal form behind some text, and no gap is behind it. -/
theorem Tight.normal (tight : Tight open_ text) :
    Normal .closed open_ text ∧ gapAfter .closed open_ text = .closed := by
  induction tight with
  | nil open_ => exact ⟨.nil nofun, by cases open_ <;> rfl⟩
  | @cons open_ c rest visible _ ih =>
      cases open_ with
      | some quote => exact ⟨.inside ih.1, ih.2⟩
      | none =>
          have notBlank := visible rfl
          refine ⟨.char notBlank ih.1, ?_⟩
          rw [gapAfter_cons, notBlank]
          exact ih.2

/-! ## Solid texts -/

/-- A text in normal form that closes its literals, is not empty and has no blanks at its ends. -/
structure Solid (text : List Char) : Prop where
  normal : Normal .pending none text
  closed : afterText none text = none
  ends : gapAfter .pending none text = .closed

/-- **A tight text is solid** if it closes its literals and is not empty. -/
theorem Solid.of_tight (tight : Tight none text) (closed : afterText none text = none)
    (notEmpty : text ≠ []) :
    Solid text := by
  cases tight with
  | nil => exact absurd rfl notEmpty
  | cons visible others =>
      refine ⟨.char (visible rfl) others.normal.1, closed, ?_⟩
      rw [gapAfter_cons, visible rfl]
      exact others.normal.2

theorem Bare.solid (bare : Bare text) (notEmpty : text ≠ []) : Solid text :=
  .of_tight bare.tight (bare.afterText_eq isQuote_of_none) notEmpty

namespace Solid

/-- **A solid text behind another.** -/
theorem append (solid : Solid text) (solidToo : Solid more) : Solid (text ++ more) where
  normal := by
    refine solid.normal.append ?_
    rw [solid.closed, solid.ends]
    exact solidToo.normal.of_pending .closed
  closed := by rw [afterText_append, solid.closed, solidToo.closed]
  ends := by
    -- the gap before a text that begins with a character that is no blank makes no difference
    -- behind it
    rw [gapAfter_append, solid.closed, solid.ends, ← solidToo.ends]
    cases solidToo.normal with
    | nil settled => exact absurd rfl settled
    | char notBlank _ => rw [gapAfter_cons, gapAfter_cons]

/-- **A solid text behind another, with a space between them.** -/
theorem spaced (solid : Solid text) (solidToo : Solid more) : Solid (text ++ ' ' :: more) where
  normal := by
    refine solid.normal.append ?_
    rw [solid.closed, solid.ends]
    exact .space solidToo.normal
  closed := by
    rw [afterText_append, solid.closed]
    exact solidToo.closed
  ends := by
    rw [gapAfter_append, solid.closed, solid.ends]
    exact solidToo.ends

/-- A solid text is its own normal form. -/
theorem normalize_eq (solid : Solid text) :
    normalize (String.ofList text) = .ok (String.ofList text) :=
  normalize_of_normal (solid.normal.of_pending .start) solid.closed

end Solid

/-- **Solid texts with a comma or a space between neighbours** are a solid text, if there are any.
-/
theorem solid_joinChars {separator : Char} (between : separator = ',' ∨ separator = ' ')
    {texts : List (List Char)} (notEmpty : texts ≠ []) (solid : ∀ text ∈ texts, Solid text) :
    Solid (joinChars separator texts) := by
  induction texts with
  | nil => exact absurd rfl notEmpty
  | cons text rest ih =>
      have first := solid text List.mem_cons_self
      cases rest with
      | nil => exact first
      | cons next others =>
          have later := ih nofun fun other member => solid other (List.mem_cons_of_mem _ member)
          rcases between with rfl | rfl
          · have comma : Bare [','] := by decide
            exact first.append ((comma.solid nofun).append later)
          · exact first.spaced later

end EntityQuery.Query

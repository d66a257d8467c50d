import EntityQuery.Query.Clauses
import EntityQuery.Proofs.SelectList.Literals

/-!
# Texts in normal form

A text is squeezed if a space is written for each run of blanks outside literals, once a character
follows it (`squeeze`). The scan that gives the normal form writes the space at once and takes it
back at the end; what it gives is the squeezed text (`normalize_eq`).

A text is in normal form if outside its literals it has no other blank than the space, no two of
them in a row and none at its ends (`Normal`). Squeezing a text gives a text in normal form
(`normal_squeeze`) and changes no text that is in normal form already (`squeeze_of_normal`).

What stands between two spaces of a normal form, or behind the last one, has no blanks at its ends
(`trimBlanks_of_normal`).
-/

set_option autoImplicit false

namespace EntityQuery.Query

open Text (isBlank trimBlanks)

/-! ## Squeezed texts -/

/-- What stands between the text written so far and the next character outside literals. -/
inductive Gap where
  /-- Nothing has been written. -/
  | start
  /-- Nothing. -/
  | closed
  /-- A run of blanks. -/
  | pending
  deriving DecidableEq, Repr

/-- The gap with one more blank. -/
def Gap.widen : Gap → Gap
  | .start => .start
  | .closed => .pending
  | .pending => .pending

/-- What is written for a gap. -/
def Gap.text : Gap → List Char
  | .start => []
  | .closed => []
  | .pending => [' ']

/-- A text with its blanks outside literals squeezed, after a gap and with a quotation mark open. -/
def squeeze : Gap → Option Char → List Char → List Char
  | _, _, [] => []
  | _, some quote, c :: rest => c :: squeeze .closed (afterChar (some quote) c) rest
  | gap, none, c :: rest =>
    if isBlank c then squeeze gap.widen none rest
    else gap.text ++ c :: squeeze .closed (afterChar none c) rest

/-- What stands for certain of what is written, the last character first: all of it in a literal or
behind a visible character, and all but the last space in a gap. -/
inductive Settles : Gap → Option Char → List Char → List Char → Prop where
  | start : Settles .start none [] []
  | inside {quote : Char} (isMark : isQuote quote = true) (written : List Char) :
      Settles .closed (some quote) written written
  | visible {c : Char} (notBlank : isBlank c = false) (before : List Char) :
      Settles .closed none (c :: before) (c :: before)
  | space {c : Char} (notBlank : isBlank c = false) (before : List Char) :
      Settles .pending none (' ' :: c :: before) (c :: before)

theorem collapse_open (written : List Char) (open_ : Option (Char × Nat)) (place : Nat)
    (text : List Char) :
    (collapse written open_ place text).2.map (·.2) = unclosedFrom? open_ place text := by
  induction text generalizing written open_ place with
  | nil => rfl
  | cons c rest ih => exact ih ..

/-- What is settled stays at the end, and a space at the end does not. -/
theorem Settles.trim {gap : Gap} {written settled : List Char}
    (settles : Settles gap none written settled) :
    written.dropWhile isBlank = settled := by
  cases settles with
  | start => rfl
  | visible notBlank => rw [List.dropWhile_cons_of_neg (by simp [notBlank])]
  | space notBlank =>
      rw [List.dropWhile_cons_of_pos Text.isBlank_space,
        List.dropWhile_cons_of_neg (by simp [notBlank])]

/-- A character in a literal, or a visible one, is settled once it is written. -/
theorem Settles.shown {gap : Gap} {open_ : Option Char} {written settled : List Char} {c : Char}
    (settles : Settles gap open_ written settled) (visible : open_ = none → isBlank c = false) :
    Settles .closed (afterChar open_ c) (c :: written) (c :: written) := by
  have marks : ∀ mark ∈ open_, isQuote mark = true := by
    cases settles with
    | inside isMark => exact fun mark same => Option.some.inj same ▸ isMark
    | start | visible | space => exact isQuote_of_none
  cases next : afterChar open_ c with
  | some quote => exact .inside (isQuote_of_afterChar marks c quote next) _
  | none =>
      refine .visible ?_ written
      cases open_ with
      | none => exact visible rfl
      | some quote =>
          -- A literal is left open by any character but its own quotation mark.
          by_cases same : c = quote
          · exact same ▸ isBlank_of_isQuote (marks quote rfl)
          · rw [afterChar_of_ne same] at next
            cases next

/-- A blank outside literals widens the gap, for which one space is written. -/
theorem Settles.blank {gap : Gap} {written settled : List Char}
    (settles : Settles gap none written settled) :
    Settles gap.widen none
      (if written.isEmpty || written.head? == some ' ' then written else ' ' :: written)
        settled := by
  cases settles with
  | start => exact .start
  | @visible c notBlank before =>
      have other : ((c :: before).head? == some ' ') = false := by
        refine beq_false_of_ne fun same => ?_
        rw [Option.some.inj same, Text.isBlank_space] at notBlank
        cases notBlank
      rw [other]
      exact .space notBlank before
  | space notBlank before => exact .space notBlank before

/-- What is written outside literals is what is settled, with the gap behind it. -/
theorem Settles.written_eq {gap : Gap} {written settled : List Char}
    (settles : Settles gap none written settled) :
    written.reverse = settled.reverse ++ gap.text := by
  cases settles with
  | start => rfl
  | visible => exact (List.append_nil _).symm
  | space => exact List.reverse_cons

/-- **A character settles what squeezing writes for it.** -/
theorem Settles.step {gap : Gap} {open_ : Option Char} {written settled : List Char}
    (settles : Settles gap open_ written settled) (c : Char) :
    ∃ next sure, Settles next (afterChar open_ c) (write written open_ c) sure ∧
      ∀ rest, settled.reverse ++ squeeze gap open_ (c :: rest) =
        sure.reverse ++ squeeze next (afterChar open_ c) rest := by
  cases open_ with
  | some quote =>
      refine ⟨.closed, c :: written, settles.shown nofun, fun rest => ?_⟩
      cases settles with
      | inside => rw [List.reverse_cons, List.append_assoc]; rfl
  | none =>
      unfold write
      by_cases blank : isBlank c = true
      · refine ⟨gap.widen, settled, ?_, fun rest => ?_⟩
        · rw [afterChar_of_isBlank blank, blank]
          exact settles.blank
        · rw [squeeze, if_pos blank, afterChar_of_isBlank blank]
      · have visible := Bool.eq_false_iff.mpr blank
        refine ⟨.closed, c :: written, ?_, fun rest => ?_⟩
        · rw [visible]
          exact settles.shown fun _ => visible
        · rw [squeeze, if_neg blank, List.reverse_cons, settles.written_eq]
          simp only [List.append_assoc, List.singleton_append]

/-- **A scan writes the squeezed text** behind what is settled before it. -/
theorem collapse_written {gap : Gap} {open_ : Option (Char × Nat)} {written settled : List Char}
    (settles : Settles gap (open_.map (·.1)) written settled) (place : Nat) (text : List Char)
    (closed : (collapse written open_ place text).2 = none) :
    ((collapse written open_ place text).1.dropWhile isBlank).reverse =
      settled.reverse ++ squeeze gap (open_.map (·.1)) text := by
  induction text generalizing gap open_ written settled place with
  | nil =>
      obtain rfl : open_ = none := closed
      rw [squeeze, List.append_nil]
      exact congrArg List.reverse settles.trim
  | cons c rest ih =>
      obtain ⟨next, sure, settles, same⟩ := settles.step c
      rw [same, ← map_afterCharAt place]
      rw [← map_afterCharAt place] at settles
      exact ih settles _ closed

/-- **The normal form is the squeezed text.** -/
theorem normalize_eq (text : String) :
    normalize text =
      match unclosed? text.toList with
      | some offset => .error (.unterminatedLiteral offset)
      | none => .ok (String.ofList (squeeze .start none text.toList)) := by
  have literals := collapse_open [] none 0 text.toList
  rw [normalize, unclosed?, ← literals]
  split
  · next ends => rw [ends]; rfl
  · next ends =>
    have written := @collapse_written .start none [] [] .start 0 text.toList (by rw [ends])
    rw [ends] at written ⊢
    rw [written]
    rfl

/-! ## Normal forms -/

/-- A text in normal form, after a gap and with a quotation mark open. A gap is pending if the space
for it has been read. -/
inductive Normal : Gap → Option Char → List Char → Prop where
  | nil {gap : Gap} {open_ : Option Char} (settled : gap ≠ .pending) : Normal gap open_ []
  | inside {quote c : Char} {rest : List Char}
      (others : Normal .closed (afterChar (some quote) c) rest) :
      Normal .closed (some quote) (c :: rest)
  | space {rest : List Char} (others : Normal .pending none rest) :
      Normal .closed none (' ' :: rest)
  | char {gap : Gap} {c : Char} {rest : List Char} (notBlank : isBlank c = false)
      (others : Normal .closed (afterChar none c) rest) :
      Normal gap none (c :: rest)

/-- The gap before the space for it is written. -/
def Gap.unwritten : Gap → Gap
  | .pending => .closed
  | gap => gap

theorem Gap.unwritten_widen (gap : Gap) : gap.widen.unwritten = gap.unwritten := by
  cases gap <;> rfl

/-- **A squeezed text is in normal form**, if nothing is left to be written inside a literal. -/
theorem normal_squeeze {gap : Gap} {open_ : Option Char} (settled : open_ = none ∨ gap = .closed)
    (text : List Char) : Normal gap.unwritten open_ (squeeze gap open_ text) := by
  induction text generalizing gap open_ with
  | nil =>
      rw [squeeze]
      exact .nil (by cases gap <;> nofun)
  | cons c rest ih =>
      cases open_ with
      | some quote =>
          obtain rfl := settled.resolve_left nofun
          exact .inside (ih (.inr rfl))
      | none =>
          rw [squeeze]
          by_cases blank : isBlank c = true
          · rw [if_pos blank, ← Gap.unwritten_widen]
            exact ih (.inl rfl)
          · have next : ∀ before,
                Normal before none (c :: squeeze .closed (afterChar none c) rest) :=
              fun _ => .char (Bool.eq_false_iff.mpr blank) (ih (.inr rfl))
            rw [if_neg blank]
            cases gap with
            | start => exact next .start
            | closed => exact next .closed
            | pending => exact .space (next .pending)

/-- **Squeezing changes no text in normal form.** -/
theorem squeeze_of_normal {gap : Gap} {open_ : Option Char} {text : List Char}
    (normal : Normal gap open_ text) : squeeze gap open_ text = gap.text ++ text := by
  induction normal with
  | @nil gap open_ settled =>
      rw [squeeze]
      cases gap with
      | pending => exact absurd rfl settled
      | start | closed => rfl
  | inside _ ih => rw [squeeze, ih]; rfl
  | space _ ih =>
      rw [squeeze, if_pos Text.isBlank_space]
      exact ih
  | char notBlank _ ih =>
      rw [squeeze, if_neg (Bool.eq_false_iff.mp notBlank), ih]
      rfl

/-- Squeezing changes nothing in the literals that a text leaves open. -/
theorem afterText_squeeze (gap : Gap) (open_ : Option Char) (text : List Char) :
    afterText open_ (squeeze gap open_ text) = afterText open_ text := by
  induction text generalizing gap open_ with
  | nil => rfl
  | cons c rest ih =>
      cases open_ with
      | some quote => exact ih .closed _
      | none =>
          rw [squeeze]
          by_cases blank : isBlank c = true
          · rw [if_pos blank, ih]
            exact (congrArg (afterText · rest) (afterChar_of_isBlank blank)).symm
          · have written : afterText none gap.text = none := by cases gap <;> rfl
            rw [if_neg blank, afterText_append, written]
            exact ih .closed _

/-- The normal form of a text, where there is one, is in normal form and closes its literals. -/
theorem normal_of_normalize {text normal : String} (succeeds : normalize text = .ok normal) :
    Normal .start none normal.toList ∧ afterText none normal.toList = none := by
  rw [normalize_eq] at succeeds
  split at succeeds
  · cases succeeds
  · next closed =>
    cases succeeds
    rw [String.toList_ofList]
    refine ⟨@normal_squeeze .start none (.inl rfl) _, ?_⟩
    rw [afterText_squeeze, ← Option.not_isSome_iff_eq_none, ← unclosed?_isSome, closed]
    nofun

/-- A text in normal form that closes its literals is its own normal form. -/
theorem normalize_of_normal {text : List Char} (normal : Normal .start none text)
    (closed : afterText none text = none) :
    normalize (String.ofList text) = .ok (String.ofList text) := by
  have noneOpen : unclosed? text = none := by
    rw [← Option.not_isSome_iff_eq_none, unclosed?_isSome, closed]
    nofun
  rw [normalize_eq, String.toList_ofList, noneOpen, squeeze_of_normal normal]
  rfl

/-! ## Parts of a normal form -/

/-- The gap after a text in normal form. -/
def gapAfter : Gap → Option Char → List Char → Gap
  | gap, _, [] => gap
  | _, some quote, c :: rest => gapAfter .closed (afterChar (some quote) c) rest
  | _, none, c :: rest => gapAfter (if isBlank c then .pending else .closed) (afterChar none c) rest

theorem gapAfter_cons (gap : Gap) (c : Char) (rest : List Char) :
    gapAfter gap none (c :: rest) =
      gapAfter (if isBlank c then .pending else .closed) (afterChar none c) rest := by
  rw [gapAfter.eq_def]

theorem gapAfter_append (gap : Gap) (open_ : Option Char) (text more : List Char) :
    gapAfter gap open_ (text ++ more) =
      gapAfter (gapAfter gap open_ text) (afterText open_ text) more := by
  induction text generalizing gap open_ with
  | nil => rfl
  | cons c rest ih => cases open_ <;> exact ih _ _

/-- What stands behind a place in a normal form is in normal form. -/
theorem Normal.rest {gap : Gap} {open_ : Option Char} {text more : List Char}
    (normal : Normal gap open_ (text ++ more)) :
    Normal (gapAfter gap open_ text) (afterText open_ text) more := by
  induction text generalizing gap open_ with
  | nil => exact normal
  | cons c rest ih =>
      cases normal with
      | inside others => exact ih others
      | space others => exact ih others
      | char notBlank others =>
          rw [gapAfter_cons, notBlank]
          exact ih others

/-- A text that does not end on a blank outside literals leaves no gap. -/
theorem notBlank_of_gapAfter {gap : Gap} {text : List Char} {c : Char}
    (closed : afterText none (text ++ [c]) = none)
    (settled : gapAfter gap none (text ++ [c]) ≠ .pending) :
    isBlank c = false := by
  rw [gapAfter_append] at settled
  rw [afterText_append] at closed
  cases before : afterText none text with
  | none =>
      rw [before, gapAfter_cons] at settled
      cases blank : isBlank c with
      | false => rfl
      | true =>
          rw [blank] at settled
          exact absurd rfl settled
  | some quote =>
      have isMark := isQuote_of_afterText isQuote_of_none text quote before
      rw [before] at closed
      by_cases same : c = quote
      · exact same ▸ isBlank_of_isQuote isMark
      · rw [afterText, List.foldl_cons, afterChar, if_neg same] at closed
        cases closed

/-- A text without blanks at its ends is not trimmed. -/
theorem trimBlanks_eq_self {text : List Char} (first : ∀ c ∈ text.head?, isBlank c = false)
    (last : ∀ c ∈ text.getLast?, isBlank c = false) : trimBlanks text = text := by
  have front : ∀ {part : List Char}, (∀ c ∈ part.head?, isBlank c = false) →
      part.dropWhile isBlank = part := by
    intro part notBlank
    cases part with
    | nil => rfl
    | cons c rest => exact List.dropWhile_cons_of_neg (Bool.eq_false_iff.mp (notBlank c rfl))
  rw [trimBlanks, front first, front (by rwa [List.head?_reverse]), List.reverse_reverse]

/-- **What stands behind a space in a normal form, up to the next one outside literals or to the
end, has no blanks at its ends.** -/
theorem trimBlanks_of_normal {text more : List Char} (normal : Normal .pending none (text ++ more))
    (closed : afterText none text = none) (ends : ∀ c ∈ more.head?, c = ' ') :
    trimBlanks text = text := by
  apply trimBlanks_eq_self
  · intro c isFirst
    obtain ⟨rest, rfl⟩ := List.head?_eq_some_iff.mp isFirst
    cases normal with
    | char notBlank _ => exact notBlank
  · intro c isLast
    obtain ⟨before, rfl⟩ := List.getLast?_eq_some_iff.mp isLast
    have others := normal.rest
    apply notBlank_of_gapAfter closed
    rw [closed] at others
    intro pending
    rw [pending] at others
    cases more with
    | nil =>
        cases others with
        | nil settled => exact settled rfl
    | cons space rest =>
        obtain rfl := ends space rfl
        cases others with
        | char notBlank _ => exact absurd notBlank (by decide)

end EntityQuery.Query

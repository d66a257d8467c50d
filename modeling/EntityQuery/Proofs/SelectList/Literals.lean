import EntityQuery.Query.Literal

/-!
# Literals in a changed text

A text is changed outside its literals if characters between them, quotation marks excepted, are
left out, and others are put in (`Rewrites`). Two such changes one after another in a text are one
(`Rewrites.append`), and a text without quotation marks may be replaced as a whole
(`Rewrites.replace`).

The literals of a text stand unaltered and in the same order in every text that arises in this way
(`Rewrites.inOrder`).
-/

set_option autoImplicit false

namespace EntityQuery.Query

/-! ## Quotation marks that are open -/

theorem afterText_append (open_ : Option Char) (text more : List Char) :
    afterText open_ (text ++ more) = afterText (afterText open_ text) more :=
  List.foldl_append

theorem isQuote_of_none : ∀ mark ∈ (none : Option Char), isQuote mark = true :=
  fun _ member => nomatch member

/-- Only quotation marks are opened. -/
theorem isQuote_of_afterChar {open_ : Option Char} (marks : ∀ mark ∈ open_, isQuote mark = true)
    (c : Char) : ∀ mark ∈ afterChar open_ c, isQuote mark = true := by
  intro mark member
  cases open_ with
  | none =>
      rw [afterChar, Option.mem_def, Option.ite_none_right_eq_some] at member
      exact Option.some.inj member.2 ▸ member.1
  | some quote =>
      rw [afterChar, Option.mem_def, Option.ite_none_left_eq_some] at member
      exact marks mark member.2

theorem isQuote_of_afterText {open_ : Option Char} (marks : ∀ mark ∈ open_, isQuote mark = true)
    (text : List Char) : ∀ mark ∈ afterText open_ text, isQuote mark = true := by
  induction text generalizing open_ with
  | nil => exact marks
  | cons c rest ih => exact ih (isQuote_of_afterChar marks c)

/-- Outside literals a quotation mark opens one. -/
theorem afterChar_of_isQuote {quote : Char} (isMark : isQuote quote = true) :
    afterChar none quote = some quote :=
  if_pos isMark

/-- Its own quotation mark closes a literal. -/
theorem afterChar_self (quote : Char) : afterChar (some quote) quote = none :=
  if_pos rfl

/-- Any other character leaves a literal open. -/
theorem afterChar_of_ne {quote c : Char} (differs : c ≠ quote) :
    afterChar (some quote) c = some quote :=
  if_neg differs

/-- A character that is no quotation mark opens and closes nothing. -/
theorem afterChar_of_not_isQuote {open_ : Option Char} (marks : ∀ mark ∈ open_, isQuote mark = true)
    {c : Char} (noQuote : isQuote c = false) : afterChar open_ c = open_ := by
  cases open_ with
  | none => rw [afterChar, if_neg (Bool.eq_false_iff.mp noQuote)]
  | some quote =>
      have differs : c ≠ quote := by
        rintro rfl
        exact Bool.eq_false_iff.mp noQuote (marks c rfl)
      exact afterChar_of_ne differs

/-- A blank opens no literal. -/
theorem afterChar_of_isBlank {c : Char} (blank : Text.isBlank c = true) :
    afterChar none c = none := by
  refine afterChar_of_not_isQuote isQuote_of_none ?_
  cases quote : isQuote c with
  | false => rfl
  | true =>
      rw [isBlank_of_isQuote quote] at blank
      cases blank

/-- A text without quotation marks opens and closes nothing. -/
theorem afterText_of_noQuotes {open_ : Option Char} (marks : ∀ mark ∈ open_, isQuote mark = true)
    {text : List Char} (noQuotes : text.any isQuote = false) : afterText open_ text = open_ := by
  induction text with
  | nil => rfl
  | cons c rest ih =>
      rw [List.any_cons, Bool.or_eq_false_iff] at noQuotes
      rw [afterText, List.foldl_cons, afterChar_of_not_isQuote marks noQuotes.1]
      exact ih noQuotes.2

/-- After a text without quotation marks nothing is open. -/
theorem afterText_none {text : List Char} (noQuotes : text.any isQuote = false) :
    afterText none text = none :=
  afterText_of_noQuotes isQuote_of_none noQuotes

/-! ## Literals -/

/-- The literals that a text closes, the first of them without what is open of it before the text.
-/
def literalsFrom : Option Char → List Char → List (List Char)
  | _, [] => []
  | none, c :: rest =>
    if isQuote c then (literalsFrom (some c) rest).modifyHead (c :: ·) else literalsFrom none rest
  | some quote, c :: rest =>
    if c = quote then [c] :: literalsFrom none rest
    else (literalsFrom (some quote) rest).modifyHead (c :: ·)

/-- The literals of a text, with their quotation marks. -/
def literals (text : List Char) : List (List Char) :=
  literalsFrom none text

/-- The pieces stand in a text one after another, without overlap. -/
inductive InOrder : List (List Char) → List Char → Prop where
  | nil (text : List Char) : InOrder [] text
  | cons {pieces : List (List Char)} {rest : List Char} (before piece : List Char)
      (others : InOrder pieces rest) : InOrder (piece :: pieces) (before ++ (piece ++ rest))

theorem InOrder.inFront {pieces : List (List Char)} {text : List Char}
    (inOrder : InOrder pieces text) (c : Char) : InOrder pieces (c :: text) := by
  cases inOrder with
  | nil => exact .nil _
  | cons before piece others => exact .cons (c :: before) piece others

/-- Every piece stands in the text. -/
theorem InOrder.isInfix {pieces : List (List Char)} {text : List Char}
    (inOrder : InOrder pieces text) :
    ∀ piece ∈ pieces, piece <:+: text := by
  induction inOrder with
  | nil => exact fun _ member => nomatch member
  | cons before piece others ih =>
      intro other member
      rcases List.mem_cons.mp member with rfl | later
      · exact ⟨before, _, List.append_assoc before other _⟩
      · exact (ih other later).trans
          ((List.suffix_append _ _).isInfix.trans (List.suffix_append _ _).isInfix)

/-! ## Changes outside literals -/

/-- A text becomes another by changes outside its literals, with a quotation mark open before both.
-/
inductive Rewrites : Option Char → List Char → List Char → Prop where
  | done (open_ : Option Char) : Rewrites open_ [] []
  | keep {open_ : Option Char} {source target : List Char} (c : Char)
      (others : Rewrites (afterChar open_ c) source target) :
      Rewrites open_ (c :: source) (c :: target)
  | leaveOut {source target : List Char} {c : Char} (noQuote : isQuote c = false)
      (others : Rewrites none source target) : Rewrites none (c :: source) target
  | putIn {source target : List Char} (c : Char) (others : Rewrites none source target) :
      Rewrites none source (c :: target)

namespace Rewrites

/-- A text is changed into itself. -/
theorem copy (open_ : Option Char) (text : List Char) : Rewrites open_ text text := by
  induction text generalizing open_ with
  | nil => exact .done open_
  | cons c rest ih => exact .keep c (ih _)

/-- Any text may be put in between literals. -/
theorem putInFront {source target : List Char} (others : Rewrites none source target)
    (text : List Char) : Rewrites none source (text ++ target) := by
  induction text with
  | nil => exact others
  | cons c rest ih => exact .putIn c ih

/-- A text without quotation marks may be replaced as a whole. -/
theorem replace {source : List Char} (noQuotes : source.any isQuote = false) (target : List Char) :
    Rewrites none source target := by
  induction source with
  | nil => simpa using (done none).putInFront target
  | cons c rest ih =>
      rw [List.any_cons, Bool.or_eq_false_iff] at noQuotes
      exact .leaveOut noQuotes.1 (ih noQuotes.2)

/-- **Two changes one after the other.** -/
theorem append {open_ : Option Char} {source target more others : List Char}
    (first : Rewrites open_ source target)
    (second : Rewrites (afterText open_ source) more others) :
    Rewrites open_ (source ++ more) (target ++ others) := by
  induction first with
  | done => exact second
  | keep c _ ih => exact .keep c (ih second)
  | leaveOut noQuote _ ih =>
      refine .leaveOut noQuote (ih ?_)
      rwa [afterText, List.foldl_cons, afterChar_of_not_isQuote isQuote_of_none noQuote] at second
  | putIn c _ ih => exact .putIn c (ih second)

/-- The literals that a changed text continues: the rest of the one that is open stands at its
start, and the others follow in order. -/
theorem literalsFrom_inOrder {open_ : Option Char} {source target : List Char}
    (rewrites : Rewrites open_ source target) :
    (open_ = none → InOrder (literalsFrom none source) target) ∧
      ∀ quote first others, open_ = some quote →
        literalsFrom (some quote) source = first :: others →
        ∃ rest, target = first ++ rest ∧ InOrder others rest := by
  induction rewrites with
  | done open_ => exact ⟨fun _ => .nil _, fun _ _ _ _ same => nomatch same⟩
  | @keep open_ source target c _ ih =>
      cases open_ with
      | none =>
          refine ⟨fun _ => ?_, fun _ _ _ same => nomatch same⟩
          rw [literalsFrom]
          split
          · next isQuote =>
            cases closed : literalsFrom (some c) source with
            | nil => exact .nil _
            | cons first others =>
                obtain ⟨rest, rfl, inOrder⟩ := ih.2 c first others (if_pos isQuote) closed
                exact .cons [] (c :: first) inOrder
          · next noQuote => exact (ih.1 (if_neg noQuote)).inFront c
      | some quote =>
          refine ⟨nofun, fun mark first others same closed => ?_⟩
          cases same
          rw [literalsFrom] at closed
          split at closed
          · next isMark =>
            obtain ⟨rfl, rfl⟩ := List.cons.inj closed
            exact ⟨target, rfl, ih.1 (if_pos isMark)⟩
          · next notMark =>
            cases later : literalsFrom (some quote) source with
            | nil =>
                rw [later] at closed
                cases closed
            | cons inner more =>
                rw [later] at closed
                cases closed
                obtain ⟨rest, rfl, inOrder⟩ := ih.2 quote inner others (if_neg notMark) later
                exact ⟨rest, rfl, inOrder⟩
  | leaveOut noQuote _ ih =>
      refine ⟨fun _ => ?_, fun _ _ _ same => nomatch same⟩
      rw [literalsFrom, if_neg (Bool.eq_false_iff.mp noQuote)]
      exact ih.1 rfl
  | putIn c _ ih => exact ⟨fun same => (ih.1 same).inFront c, fun _ _ _ same => nomatch same⟩

/-- **The literals of a text stand unaltered and in the same order in the changed one.** -/
theorem inOrder {source target : List Char} (rewrites : Rewrites none source target) :
    InOrder (literals source) target :=
  rewrites.literalsFrom_inOrder.1 rfl

end Rewrites

end EntityQuery.Query

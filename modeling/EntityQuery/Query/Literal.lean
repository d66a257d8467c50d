import EntityQuery.Text.Blank

/-!
# Literals in a text

A quotation mark, single or double, opens a literal that lasts up to the next mark of the same kind.
Scanners of a text carry the mark that is open; `afterChar` says what is open after one more
character, and `unclosed?` finds the literal that a text does not close.
-/

set_option autoImplicit false

namespace EntityQuery.Query

/-- The quotation marks. -/
def isQuote (c : Char) : Bool :=
  c == '\'' || c == '"'

/-- The quotation mark that is open after one more character. -/
def afterChar : Option Char → Char → Option Char
  | some quote, c => if c = quote then none else some quote
  | none, c => if isQuote c then some c else none

/-- The quotation mark that is open after a text. -/
def afterText (open_ : Option Char) (text : List Char) : Option Char :=
  text.foldl afterChar open_

/-- The quotation mark that is open after one more character, with its own place. -/
def afterCharAt (place : Nat) : Option (Char × Nat) → Char → Option (Char × Nat)
  | some (quote, start), c => if c = quote then none else some (quote, start)
  | none, c => if isQuote c then some (c, place) else none

/-- Where the literal starts that a text leaves open, in octets from the start of the whole text.
The text begins at `place`, and `open_` is the mark open there with its own place. -/
def unclosedFrom? (open_ : Option (Char × Nat)) (place : Nat) : List Char → Option Nat
  | [] => open_.map (·.2)
  | c :: rest => unclosedFrom? (afterCharAt place open_ c) (place + c.utf8Size) rest

/-- Where the literal starts that a text leaves open. -/
def unclosed? (text : List Char) : Option Nat :=
  unclosedFrom? none 0 text

theorem isQuote_eq_true_iff {c : Char} : isQuote c = true ↔ c = '\'' ∨ c = '"' := by
  simp [isQuote]

theorem isBlank_of_isQuote {c : Char} (quote : isQuote c = true) : Text.isBlank c = false := by
  rcases isQuote_eq_true_iff.1 quote with rfl | rfl <;> decide

theorem map_afterCharAt (place : Nat) (open_ : Option (Char × Nat)) (c : Char) :
    (afterCharAt place open_ c).map (·.1) = afterChar (open_.map (·.1)) c := by
  cases open_ with
  | none => simp only [afterCharAt, Option.map_none, afterChar]; split <;> rfl
  | some mark => simp only [afterCharAt, Option.map_some, afterChar]; split <;> rfl

theorem unclosedFrom?_isSome (open_ : Option (Char × Nat)) (place : Nat) (text : List Char) :
    (unclosedFrom? open_ place text).isSome = (afterText (open_.map (·.1)) text).isSome := by
  induction text generalizing open_ place with
  | nil => cases open_ <;> rfl
  | cons c rest ih => rw [unclosedFrom?, ih, map_afterCharAt]; rfl

/-- A text leaves a literal open if a quotation mark is open after it. -/
theorem unclosed?_isSome (text : List Char) :
    (unclosed? text).isSome = (afterText none text).isSome :=
  unclosedFrom?_isSome none 0 text

end EntityQuery.Query

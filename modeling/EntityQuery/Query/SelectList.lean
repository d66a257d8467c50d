import EntityQuery.Query.Clauses
import EntityQuery.Text.Word

/-!
# Select lists

A select list is taken apart at the commas outside literals and parentheses, after the blanks
outside literals are dropped. A closing parenthesis without an opening one counts for nothing. An
item with an opening parenthesis is a call of one level.
-/

set_option autoImplicit false

namespace EntityQuery.Query

open Text (isBlank)

/-- How many parentheses are open after one more character. -/
def depthAfter (depth : Nat) (c : Char) : Nat :=
  if c = '(' then depth + 1 else if c = ')' then depth - 1 else depth

/-- The items with a character in front of the first. -/
def inFront (c : Char) : List (List Char) → List (List Char)
  | [] => [[c]]
  | item :: items => (c :: item) :: items

/-- The items of a text, with parentheses and perhaps a quotation mark open before it. There is
always at least one item, the rest of the one that the text continues. -/
def itemsFrom : Nat → Option Char → List Char → List (List Char)
  | _, _, [] => [[]]
  | depth, some quote, c :: rest => inFront c (itemsFrom depth (afterChar (some quote) c) rest)
  | depth, none, c :: rest =>
    if c = ',' ∧ depth = 0 then [] :: itemsFrom depth none rest
    else if isBlank c then itemsFrom depth none rest
    else inFront c (itemsFrom (depthAfter depth c) (afterChar none c) rest)

/-- The items of a select list, each of which has some text. -/
def splitSelectList (text : String) : Except TextError (List String) :=
  let items := itemsFrom 0 none text.toList
  if items.any List.isEmpty then .error (.emptyClause .select)
  else .ok (items.map String.ofList)

/-- An item of a select list. -/
inductive SelectItem where
  /-- A name and its arguments. -/
  | call (name : String) (arguments : List String)
  | path (text : String)
  deriving DecidableEq, Repr

/-- The arguments between the parentheses of a call; empty ones are left out. -/
def argumentsOf (inner : List Char) : List String :=
  ((Text.splitChars ',' inner).filter fun argument => !argument.isEmpty).map String.ofList

/-- The item that a text stands for: a call if it has an opening parenthesis, which then is its only
one and is closed at the end of the text and nowhere before. -/
def SelectItem.ofText? (text : String) : Option SelectItem :=
  let chars := text.toList
  match chars.dropWhile (· ≠ '(') with
  | [] => some (.path text)
  | _ :: afterOpening =>
    let inner := afterOpening.dropLast
    if chars.getLast? = some ')' ∧ inner.all fun c => c ≠ '(' ∧ c ≠ ')' then
      some (.call (String.ofList (chars.takeWhile (· ≠ '('))) (argumentsOf inner))
    else none

end EntityQuery.Query

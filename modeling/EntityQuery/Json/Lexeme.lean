import EntityQuery.Json.Basic
import EntityQuery.Text.Digit

/-!
# Lexemes of JSON texts

A JSON text as punctuation, words, numbers and strings, up to its first violation of the lexical
rules, which appears as a last lexeme `fault`. Two things that are checked only where a value is
used leave no fault here: a string with a surrogate escape that has no partner is a lexeme without a
text, and a number keeps its digits, whatever its size.
-/

set_option autoImplicit false

namespace EntityQuery.Json

/-- The digits of a number as they were written. -/
structure Numeral where
  negative : Bool
  /-- The digits before the point. -/
  whole : List Char
  /-- The digits after the point; there are none when there is no point. -/
  fraction : List Char
  exponent? : Option Int
  deriving DecidableEq, Repr

/-- The smallest unit of a JSON text. -/
inductive Lexeme where
  | beginArray
  | endArray
  | beginObject
  | endObject
  | colon
  | comma
  | null
  | bool (value : Bool)
  | number (numeral : Numeral)
  /-- A string; there is no text when a surrogate escape in it stands alone. -/
  | string (text? : Option String)
  /-- The text violates the lexical rules from here on. -/
  | fault
  deriving DecidableEq, Repr

/-! ## Numbers -/

/-- The digits before the point: one zero, or digits of which the first is not zero. -/
def whole? (text : List Char) : Option (List Char × List Char) :=
  match text.takeWhile Char.isDigit with
  | [] => none
  | ['0'] => some (['0'], text.drop 1)
  | '0' :: _ => none
  | digits => some (digits, text.drop digits.length)

/-- A point and the digits after it, of which there must be one; no point, no digits. -/
def fraction? : List Char → Option (List Char × List Char)
  | '.' :: rest =>
    let digits := rest.takeWhile Char.isDigit
    if digits.isEmpty then none else some (digits, rest.drop digits.length)
  | text => some ([], text)

/-- The digits of an exponent, of which there must be one. -/
def exponentDigits? (negative : Bool) (text : List Char) : Option (Option Int × List Char) :=
  let digits := text.takeWhile Char.isDigit
  if digits.isEmpty then none
  else
    let size : Int := Text.digitsValue digits
    some (some (if negative then -size else size), text.drop digits.length)

/-- An exponent with its mark and sign, if there is one. -/
def exponent? : List Char → Option (Option Int × List Char)
  | mark :: rest =>
    if mark = 'e' ∨ mark = 'E' then
      match rest with
      | '+' :: rest => exponentDigits? false rest
      | '-' :: rest => exponentDigits? true rest
      | rest => exponentDigits? false rest
    else some (none, mark :: rest)
  | [] => some (none, [])

/-- A number after its sign. -/
def numeral? (negative : Bool) (text : List Char) : Option (Numeral × List Char) := do
  let (whole, rest) ← whole? text
  let (fraction, rest) ← fraction? rest
  let (exponent, rest) ← exponent? rest
  return (⟨negative, whole, fraction, exponent⟩, rest)

/-! ## Strings -/

/-- A character of a string, or one code unit of an escape that names a half of a surrogate pair. -/
inductive Piece where
  | char (c : Char)
  | high (unit : Nat)
  | low (unit : Nat)
  deriving DecidableEq, Repr

/-- The piece that an escaped code unit stands for. -/
def Piece.ofUnit (unit : Nat) : Piece :=
  if 0xD800 ≤ unit ∧ unit ≤ 0xDBFF then .high unit
  else if 0xDC00 ≤ unit ∧ unit ≤ 0xDFFF then .low unit
  else .char (Char.ofNat unit)

/-- The character that an escape of one letter stands for. -/
def escaped? : Char → Option Char
  | '"' => some '"'
  | '\\' => some '\\'
  | '/' => some '/'
  | 'b' => some '\x08'
  | 'f' => some '\x0C'
  | 'n' => some '\n'
  | 'r' => some '\r'
  | 't' => some '\t'
  | _ => none

/-- The pieces of a string after its opening quotation mark, and the text after the closing one. -/
def pieces? : List Char → Option (List Piece × List Char)
  | [] => none
  | '"' :: rest => some ([], rest)
  | '\\' :: 'u' :: a :: b :: c :: d :: rest => do
    let unit ← Text.hexValue? [a, b, c, d]
    let (pieces, rest) ← pieces? rest
    return (.ofUnit unit :: pieces, rest)
  | '\\' :: letter :: rest => do
    let c ← escaped? letter
    let (pieces, rest) ← pieces? rest
    return (.char c :: pieces, rest)
  | c :: rest =>
    if c.toNat < 0x20 ∨ c = '\\' then none
    else (pieces? rest).map fun (pieces, rest) => (.char c :: pieces, rest)

/-- The text of the pieces, if every half of a surrogate pair has its partner. -/
def textOfPieces? : List Piece → Option (List Char)
  | [] => some []
  | .char c :: rest => (textOfPieces? rest).map (c :: ·)
  | .high unit :: .low second :: rest =>
    (textOfPieces? rest).map
      (Char.ofNat (0x10000 + (unit - 0xD800) * 0x400 + (second - 0xDC00)) :: ·)
  | .high _ :: _ => none
  | .low _ :: _ => none

/-! ## Texts -/

/-- The characters that may stand between lexemes. -/
def isSeparator (c : Char) : Bool :=
  c == ' ' || c == '\n' || c == '\t' || c == '\r'

/-- The rest of a text after a word at its front. -/
def afterWord? (word : List Char) (text : List Char) : Option (List Char) :=
  if word.isPrefixOf text then some (text.drop word.length) else none

/-- The lexeme that starts with `c`, and the text after it. -/
def lexeme? (c : Char) (rest : List Char) : Option (Lexeme × List Char) :=
  match c with
  | '[' => some (.beginArray, rest)
  | ']' => some (.endArray, rest)
  | '\x7b' => some (.beginObject, rest)
  | '\x7d' => some (.endObject, rest)
  | ':' => some (.colon, rest)
  | ',' => some (.comma, rest)
  | 'n' => (afterWord? ['u', 'l', 'l'] rest).map fun rest => (.null, rest)
  | 't' => (afterWord? ['r', 'u', 'e'] rest).map fun rest => (.bool true, rest)
  | 'f' => (afterWord? ['a', 'l', 's', 'e'] rest).map fun rest => (.bool false, rest)
  | '"' => (pieces? rest).map fun (pieces, rest) =>
      (.string ((textOfPieces? pieces).map String.ofList), rest)
  | '-' => (numeral? true rest).map fun (numeral, rest) => (.number numeral, rest)
  | _ => (numeral? false (c :: rest)).map fun (numeral, rest) => (.number numeral, rest)

/-- The lexemes of a text, of which there are at most as many as characters. -/
def lexemesWithin : Nat → List Char → List Lexeme
  | 0, _ => []
  | fuel + 1, text =>
    match text.dropWhile isSeparator with
    | [] => []
    | c :: rest =>
      match lexeme? c rest with
      | none => [.fault]
      | some (lexeme, rest) => lexeme :: lexemesWithin fuel rest

/-- The lexemes of a text up to its first fault. -/
def lexemes (text : List Char) : List Lexeme :=
  lexemesWithin text.length text

end EntityQuery.Json

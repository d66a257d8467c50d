import EntityQuery.Text.Digit

/-!
# Universally unique identifiers

Numbers of 128 bits, written as thirty-two small hexadecimal digits in five groups joined by
hyphens. They are read in either case, with or without the hyphens, and with the hyphens also
between braces or after the scheme `urn:uuid:`, whose case does not matter either.
-/

set_option autoImplicit false

namespace EntityQuery

/-- A number of 128 bits. -/
structure Uuid where
  bits : BitVec 128
  deriving DecidableEq, Repr, Inhabited

namespace Uuid

/-- The text of an identifier. -/
def text (uuid : Uuid) : String :=
  let digits := Text.hexDigits 32 uuid.bits.toNat
  let group first count := (digits.drop first).take count
  String.ofList <|
    group 0 8 ++ '-' :: group 8 4 ++ '-' :: group 12 4 ++ '-' :: group 16 4 ++ '-' :: group 20 12

/-- The identifier of thirty-two hexadecimal digits. -/
def ofDigits? (digits : List Char) : Option Uuid :=
  if digits.length = 32 then
    (Text.hexValue? digits).map fun value => ⟨BitVec.ofNat 128 value⟩
  else none

/-- The identifier of digits in five groups. -/
def ofGroups? (text : List Char) : Option Uuid :=
  if text.length = 36 ∧ ∀ place ∈ [8, 13, 18, 23], text[place]? = some '-' then
    ofDigits? (text.filter (· ≠ '-'))
  else none

/-- The scheme that may precede an identifier, in small letters. -/
def scheme : List Char := "urn:uuid:".toList

/-- The identifier that a text holds. -/
def ofText? (text : String) : Option Uuid :=
  let chars := text.toList
  if chars.length = 38 ∧ chars.head? = some '\x7b' ∧ chars.getLast? = some '\x7d' then
    ofGroups? ((chars.drop 1).take 36)
  else if chars.length = 45 ∧ (chars.take 9).map Char.toLower = scheme then ofGroups? (chars.drop 9)
  else (ofDigits? chars).or (ofGroups? chars)

end Uuid

end EntityQuery

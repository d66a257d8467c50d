/-!
# Digits

The values of decimal and hexadecimal digits and of numbers written with them.
-/

set_option autoImplicit false

namespace EntityQuery.Text

/-- The number whose decimal digits follow those of `start`. -/
def digitsValueFrom (start : Nat) (digits : List Char) : Nat :=
  digits.foldl (fun value digit => 10 * value + (digit.toNat - '0'.toNat)) start

/-- The number of decimal digits. -/
def digitsValue (digits : List Char) : Nat :=
  digitsValueFrom 0 digits

@[simp] theorem digitsValue_nil : digitsValue [] = 0 := rfl

/-- The value of a hexadecimal digit, small or capital. -/
def hexDigit? (c : Char) : Option Nat :=
  if c.isDigit then some (c.toNat - '0'.toNat)
  else if 'a' ≤ c ∧ c ≤ 'f' then some (c.toNat - 'a'.toNat + 10)
  else if 'A' ≤ c ∧ c ≤ 'F' then some (c.toNat - 'A'.toNat + 10)
  else none

/-- The number of hexadecimal digits. -/
def hexValue? (digits : List Char) : Option Nat :=
  digits.foldlM (fun value digit => (hexDigit? digit).map (16 * value + ·)) 0

/-- The small hexadecimal digits of a number, with zeros in front up to a width. -/
def hexDigits (width n : Nat) : List Char :=
  let digits := Nat.toDigits 16 n
  List.replicate (width - digits.length) '0' ++ digits

end EntityQuery.Text

import EntityQuery.Json.Lexeme

/-!
# The value of a numeral

A numeral without point and exponent is an integer if it fits 64 bits, with a sign or without one; a
negative zero is none. Every other numeral is a double: as many of its leading digits as fit 64
bits, scaled by a power of ten in one double operation. That operation is exact, and the double the
nearest one, whenever the digits fit 53 bits and the power of ten is at most 22.
-/

set_option autoImplicit false

namespace EntityQuery.Json

/-- Digits read on from `start` as long as the value fits 64 bits, and the digits left over. -/
def leadingDigits (start : Nat) : List Char → Nat × List Char
  | [] => (start, [])
  | digit :: rest =>
    let value := 10 * start + (digit.toNat - '0'.toNat)
    if value < UInt64.size then leadingDigits value rest else (start, digit :: rest)

/-- A power of ten as a double. -/
def powerOfTen (exponent : Nat) : Float :=
  Float.ofScientific 1 false exponent

/-- The largest exponent whose power of ten is a double. -/
def largestPower : Int := 308

/-- A double times a power of ten, absent where it would be infinite. A number too small for one
division by a power of ten is divided repeatedly until it is zero, which takes at most `fuel` steps.
-/
def scale? : Nat → Float → Int → Option Float
  | fuel, value, exponent =>
    if exponent.natAbs ≤ largestPower.toNat then
      if 0 ≤ exponent then
        let scaled := value * powerOfTen exponent.natAbs
        if scaled.isInf then none else some scaled
      else some (value / powerOfTen exponent.natAbs)
    else if value == 0 then some value
    else if 0 ≤ exponent then none
    else match fuel with
      | 0 => some 0
      | fuel + 1 => scale? fuel (value / powerOfTen largestPower.toNat) (exponent + largestPower)

namespace Numeral

/-- The leading digits and the power of ten that they are to be scaled by. -/
def scaled (numeral : Numeral) : Nat × Int :=
  let (whole, dropped) := leadingDigits 0 numeral.whole
  let (digits, left) := leadingDigits whole numeral.fraction
  (digits, dropped.length - (numeral.fraction.length - left.length : Nat) +
    numeral.exponent?.getD 0)

/-- The numeral as a double, absent where it would be infinite. -/
def float? (numeral : Numeral) : Option Float :=
  let (digits, exponent) := numeral.scaled
  (scale? 4 digits.toUInt64.toFloat exponent).map fun size =>
    if numeral.negative then -size else size

/-- The numeral as an integer of 64 bits. -/
def integer? (numeral : Numeral) : Option Int :=
  if numeral.fraction.isEmpty && numeral.exponent?.isNone then
    let size : Int := Text.digitsValue numeral.whole
    if numeral.negative then
      if size = 0 ∨ -size < minSigned then none else some (-size)
    else if size ≤ maxUnsigned then some size else none
  else none

/-- The number that a numeral stands for. -/
def number? (numeral : Numeral) : Option Number :=
  match numeral.integer? with
  | some value => some (.integer value)
  | none => numeral.float?.map .float

end Numeral

end EntityQuery.Json

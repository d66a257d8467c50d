import EntityQuery.Decimal.Shortest

/-!
# Layouts of floating-point numbers

How a double is written: its shortest decimal (`Decimal.shortest`) laid out by a `Layout`, which
says for which sizes the digits stand in their places and whether a whole number keeps a `.0`;
outside these sizes the exponent form is used, with the sign of the exponent always written.
-/

set_option autoImplicit false

namespace EntityQuery.Decimal

/-- The decisions of a number format. -/
structure Layout where
  /-- Which of two equally near decimals is taken. -/
  tie : Tie
  /-- The leading digits' exponents written without an exponent, from the first up to but without
  the second; `none` stands for all of them. -/
  plain? : Option (Int × Int)
  /-- Whether a whole number ends in `.0`. -/
  pointZero : Bool
  /-- The text of a value that is not a number. -/
  notANumber : String
  /-- The text of an infinite value, after its sign. -/
  infinity : String

/-- Zeros. -/
def zeros (count : Nat) : String :=
  String.ofList (List.replicate count '0')

/-- The digits in their places. -/
def Layout.positional (layout : Layout) (digits : String) (exponent : Int) : String :=
  let point : Int := digits.length + exponent
  if 0 ≤ exponent then
    digits ++ zeros exponent.toNat ++ (if layout.pointZero then ".0" else "")
  else if 0 < point then
    String.ofList (digits.toList.take point.toNat) ++ "."
      ++ String.ofList (digits.toList.drop point.toNat)
  else
    "0." ++ zeros (-point).toNat ++ digits

/-- The digits with a point after the first and the exponent of the first. -/
def exponential (digits : String) (leading : Int) : String :=
  let fraction := String.ofList (digits.toList.drop 1)
  String.ofList (digits.toList.take 1) ++ (if fraction.isEmpty then "" else "." ++ fraction)
    ++ (if 0 ≤ leading then "e+" else "e-") ++ toString leading.natAbs

/-- A positive decimal as text. -/
def Layout.write (layout : Layout) (decimal : Scaled) : String :=
  let digits := toString decimal.digits
  let leading : Int := (digits.length : Int) - 1 + decimal.exponent
  match layout.plain? with
  | none => layout.positional digits decimal.exponent
  | some (first, beyond) =>
    if first ≤ leading ∧ leading < beyond then layout.positional digits decimal.exponent
    else exponential digits leading

/-- The sign bit of a double. -/
def signBit : Nat := 0x8000000000000000

/-- The leading bit of a double's mantissa, in front of the fifty-two bits that are stored. -/
def leadingBit : Nat := 0x10000000000000

/-- The text of a double: its sign, also of zero, and then its size. -/
def Layout.text (layout : Layout) (value : Float) : String :=
  let bits := value.toBits.toNat
  let sign := if signBit ≤ bits then "-" else ""
  let biased : Nat := bits / leadingBit % 2048
  let fraction := bits % leadingBit
  if biased = 2047 then
    if fraction = 0 then sign ++ layout.infinity else layout.notANumber
  else if biased = 0 then
    if fraction = 0 then sign ++ (if layout.pointZero then "0.0" else "0")
    else sign ++ layout.write (shortest fraction (-1074) false layout.tie)
  else
    sign ++ layout.write
      (shortest (leadingBit + fraction) ((biased : Int) - 1075)
        (fraction == 0 && biased != 1) layout.tie)

end EntityQuery.Decimal

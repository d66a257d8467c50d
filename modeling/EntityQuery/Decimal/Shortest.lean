/-!
# Shortest decimals

A finite positive binary number `mantissa · 2 ^ exponent` is written with the fewest significant
digits that read back as the same number. The decimals that read back form an interval around the
number, bounded by the midpoints to its neighbours; the bounds themselves belong to it when the
mantissa is even. For one, two, … digits the two neighbours of the number on that decimal grid are
tested in exact arithmetic; the first grid with a hit wins, of two hits the nearer one, and an exact
tie is settled by the caller's rule.
-/

set_option autoImplicit false

namespace EntityQuery.Decimal

/-- Which of two equally near decimals is taken. -/
inductive Tie where
  /-- The larger one. -/
  | up
  /-- The one whose last digit is even. -/
  | even
  deriving DecidableEq, Repr

/-- The decimal `digits · 10 ^ exponent`. -/
structure Scaled where
  digits : Nat
  exponent : Int
  deriving DecidableEq, Repr

/-- The number of decimal digits of a natural number, none for zero. -/
def digitCount (n : Nat) : Nat :=
  if n = 0 then 0 else (Nat.toDigits 10 n).length

/-- A positive binary number as a quotient of natural numbers, with its interval of decimals that
read back: `low / (4 · denominator)` to `high / (4 · denominator)`. -/
structure Span where
  numerator : Nat
  denominator : Nat
  low : Nat
  high : Nat
  closed : Bool

/-- The span of `mantissa · 2 ^ exponent`; below a power of two the neighbours lie half as far apart
when `narrow` holds. -/
def Span.ofBinary (mantissa : Nat) (exponent : Int) (narrow : Bool) : Span :=
  let up := Nat.pow 2 exponent.toNat
  { numerator := mantissa * up
    denominator := Nat.pow 2 (-exponent).toNat
    low := (4 * mantissa - if narrow then 1 else 2) * up
    high := (4 * mantissa + 2) * up
    closed := mantissa % 2 == 0 }

/-- The exponent of the leading decimal digit. -/
def Span.leading (span : Span) : Int :=
  if span.denominator ≤ span.numerator then
    (digitCount (span.numerator / span.denominator) : Int) - 1
  else
    -(digitCount ((span.denominator - 1) / span.numerator) : Int)

/-- Whether a decimal reads back as the number. -/
def Span.readsBack (span : Span) (decimal : Scaled) : Bool :=
  let value := 4 * decimal.digits * Nat.pow 10 decimal.exponent.toNat * span.denominator
  let unit := Nat.pow 10 (-decimal.exponent).toNat
  if span.closed then span.low * unit ≤ value && value ≤ span.high * unit
  else span.low * unit < value && value < span.high * unit

/-- The decimal of the grid of step `10 ^ exponent` next to the number that reads back, if one does.
-/
def Span.onGrid? (span : Span) (tie : Tie) (exponent : Int) : Option Scaled :=
  let numerator := span.numerator * Nat.pow 10 (-exponent).toNat
  let denominator := span.denominator * Nat.pow 10 exponent.toNat
  let below : Scaled := ⟨numerator / denominator, exponent⟩
  let above : Scaled := ⟨numerator / denominator + 1, exponent⟩
  match span.readsBack below, span.readsBack above with
  | false, false => none
  | true, false => some below
  | false, true => some above
  | true, true =>
    let rest := numerator % denominator
    if 2 * rest < denominator then some below
    else if denominator < 2 * rest then some above
    else match tie with
      | .up => some above
      | .even => some (if below.digits % 2 = 0 then below else above)

/-- The first grid, from the leading digit on, with a decimal that reads back; seventeen digits
always suffice for a number of 53 bits, and the exact quotient rounded down stands behind the last
grid. -/
def Span.shortest (span : Span) (tie : Tie) : Scaled :=
  let leading := span.leading
  match (List.range 17).findSome? fun count : Nat => span.onGrid? tie (leading - count) with
  | some decimal => decimal
  | none =>
    ⟨span.numerator * Nat.pow 10 (17 - leading).toNat
        / (span.denominator * Nat.pow 10 (leading - 17).toNat),
      leading - 17⟩

/-- The same decimal without trailing zeros; at most `fuel` of them are dropped. -/
def Scaled.dropZeros : Nat → Scaled → Scaled
  | 0, decimal => decimal
  | fuel + 1, decimal =>
    if decimal.digits ≠ 0 ∧ decimal.digits % 10 = 0 then
      dropZeros fuel ⟨decimal.digits / 10, decimal.exponent + 1⟩
    else decimal

/-- The shortest decimal that reads back as `mantissa · 2 ^ exponent`. -/
def shortest (mantissa : Nat) (exponent : Int) (narrow : Bool) (tie : Tie) : Scaled :=
  ((Span.ofBinary mantissa exponent narrow).shortest tie).dropZeros 20

end EntityQuery.Decimal

import EntityQuery.Calendar.Timestamp
import EntityQuery.Text.Blank
import EntityQuery.Text.Digit

/-!
# Reading dates and timestamps

The texts that documents hold for dates and timestamps. Both are read leniently: blanks may stand
before a number and before a separator, months, days and clock parts may have one digit, and a year
may have a sign and then any number of digits. Each reader returns what it read together with the
rest of the text. A timestamp names its offset from universal time.
-/

set_option autoImplicit false

namespace EntityQuery

open Text (digitsValue isBlank skipBlanks)

namespace Calendar

/-- The digits at the front of a text, at least one and at most `limit` of them. -/
def number? (limit : Nat) (text : List Char) : Option (Nat × List Char) :=
  let digits := (text.take limit).takeWhile Char.isDigit
  if digits.isEmpty then none else some (digitsValue digits, text.drop digits.length)

/-- A year: a sign and any number of digits, or up to four digits. -/
def year? (text : List Char) : Option (Int × List Char) :=
  match skipBlanks text with
  | '-' :: rest => (number? rest.length rest).map fun (year, rest) => (-(year : Int), rest)
  | '+' :: rest => (number? rest.length rest).map fun (year, rest) => ((year : Int), rest)
  | rest => (number? 4 rest).map fun (year, rest) => ((year : Int), rest)

/-- A part of a date or time with one or two digits. -/
def part? (text : List Char) : Option (Nat × List Char) :=
  number? 2 (skipBlanks text)

/-- What follows a separator, before which blanks may stand. -/
def afterMark? (mark : Char) (text : List Char) : Option (List Char) :=
  match skipBlanks text with
  | c :: rest => if c = mark then some rest else none
  | [] => none

/-- Year, month and day at the front of a text. -/
def dateParts? (text : List Char) : Option ((Int × Nat × Nat) × List Char) := do
  let (year, rest) ← year? text
  let (month, rest) ← part? (← afterMark? '-' rest)
  let (day, rest) ← part? (← afterMark? '-' rest)
  return ((year, month, day), rest)

/-- The nanoseconds after a point, of which nine digits count; a text without a point has none. -/
def fraction? : List Char → Option (Nat × List Char)
  | '.' :: rest => do
    let (part, _) ← number? 9 rest
    let digits := rest.takeWhile Char.isDigit
    return (part * Nat.pow 10 (9 - digits.length), rest.drop digits.length)
  | rest => some (0, rest)

/-- Seconds east of universal time: the letters of universal time, or a sign, two digits of hours,
colons or blanks, and two digits of minutes. -/
def offset? : List Char → Option (Int × List Char)
  | 'Z' :: rest | 'z' :: rest => some (0, rest)
  | sign :: h :: i :: rest => do
    if sign.toUpper = 'U' ∧ h.toUpper = 'T' ∧ i.toUpper = 'C' then return (0, rest)
    let east ← if sign = '+' then some true
      else if sign = '-' ∨ sign = '\u2212' then some false else none
    guard (h.isDigit && i.isDigit)
    match rest.dropWhile fun c => c == ':' || isBlank c with
    | m :: n :: rest =>
      guard (m.isDigit && n.isDigit && m.toNat ≤ '5'.toNat)
      let seconds : Int := digitsValue [h, i] * 3600 + digitsValue [m, n] * 60
      guard (seconds < 86400)
      return (if east then seconds else -seconds, rest)
    | _ => none
  | _ => none

/-- Hour, minute, second and nanoseconds at the front of a text. -/
def clock? (text : List Char) : Option ((Nat × Nat × Nat × Nat) × List Char) := do
  let (hour, rest) ← part? text
  let (minute, rest) ← part? (← afterMark? ':' rest)
  let (second, rest) ← part? (← afterMark? ':' rest)
  let (nanoseconds, rest) ← fraction? rest
  guard (hour ≤ 23 && minute ≤ 59 && second ≤ 60)
  return ((hour, minute, second, nanoseconds), rest)

end Calendar

open Calendar

/-- The date that a text holds. -/
def Date.ofText? (text : String) : Option Date := do
  let ((year, month, day), rest) ← dateParts? text.toList
  guard (skipBlanks rest).isEmpty
  Date.ofParts? year month day

/-- The moment that a text holds. -/
def Timestamp.ofText? (text : String) : Option Timestamp := do
  let ((year, month, day), rest) ← dateParts? text.toList
  let separator :: rest := rest | none
  guard (separator == 'T' || separator == 't' || separator == ' ')
  let ((hour, minute, second, nanoseconds), rest) ← clock? rest
  let (offset, rest) ← offset? (skipBlanks rest)
  guard (skipBlanks rest).isEmpty
  let date ← Date.ofParts? year month day
  let leap := second / 60
  let local_ := date.toDays * 86400 + hour * 3600 + minute * 60 + (second - leap)
  Timestamp.ofSeconds? (local_ - offset) (nanoseconds + leap * 1000000000)

end EntityQuery

import EntityQuery.Calendar.Date

/-!
# Timestamps

Moments in universal time to the nanosecond. A leap second belongs to the second before it and has
a thousand million nanoseconds more, so that it is shown as second 60.
-/

set_option autoImplicit false

namespace EntityQuery

/-- A moment: whole seconds since the start of 1970 and nanoseconds, which reach a thousand million
only in a leap second. -/
structure Timestamp where
  seconds : Int
  nanoseconds : Nat
  deriving DecidableEq, Repr, Inhabited

namespace Timestamp

/-- The moment this many seconds after the start of 1970, if its date is in range. -/
def ofSeconds? (seconds : Int) (nanoseconds : Nat) : Option Timestamp :=
  let day := seconds / 86400
  if Date.firstDay ≤ day ∧ day ≤ Date.lastDay then some ⟨seconds, nanoseconds⟩ else none

/-- The day of a moment. -/
def date (moment : Timestamp) : Date :=
  Date.ofDays (moment.seconds / 86400)

/-- The time of day to the second. -/
def timeText (moment : Timestamp) : String :=
  let second := (moment.seconds % 86400).toNat
  Date.padded 2 (second / 3600) ++ ":" ++ Date.padded 2 (second / 60 % 60) ++ ":"
    ++ Date.padded 2 (second % 60 + moment.nanoseconds / 1000000000)

/-- The text of a moment to the second. -/
def text (moment : Timestamp) : String :=
  moment.date.text ++ " " ++ moment.timeText

/-- The part of a second: nothing, or three, six or nine digits after a point. -/
def fractionText (moment : Timestamp) : String :=
  let part := moment.nanoseconds % 1000000000
  if part = 0 then ""
  else if part % 1000000 = 0 then "." ++ Date.padded 3 (part / 1000000)
  else if part % 1000 = 0 then "." ++ Date.padded 6 (part / 1000)
  else "." ++ Date.padded 9 part

/-- The text of a moment in documents. -/
def documentText (moment : Timestamp) : String :=
  moment.date.text ++ "T" ++ moment.timeText ++ moment.fractionText ++ "Z"

end Timestamp

end EntityQuery

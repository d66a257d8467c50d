/-!
# JSON values

The values of the JSON data format. A number is kept as an integer where it was written as one and
fits 64 bits, signed or unsigned, and as a double otherwise. The members of an object stand in the
order in which they are printed; values that were read have their members in ascending order of the
keys.
-/

set_option autoImplicit false

namespace EntityQuery

/-- A number of a JSON value. -/
inductive Json.Number where
  /-- An integer from `-2 ^ 63` to `2 ^ 64 - 1`. -/
  | integer (value : Int)
  | float (value : Float)
  deriving Repr, Inhabited, BEq

/-- A JSON value. -/
inductive Json where
  | null
  | bool (value : Bool)
  | number (value : Json.Number)
  | string (value : String)
  | array (items : List Json)
  | object (members : List (String × Json))
  deriving Repr, Inhabited

namespace Json

/-- An integer as a value. -/
def ofInt (value : Int) : Json := .number (.integer value)

/-- A member of an object, absent in every other value. -/
def member? (key : String) : Json → Option Json
  | .object members => members.lookup key
  | _ => none

/-- The first and the last integer of 64 bits with a sign, and the last without one. -/
def minSigned : Int := -9223372036854775808

@[inherit_doc minSigned] def maxSigned : Int := 9223372036854775807

@[inherit_doc minSigned] def maxUnsigned : Int := 18446744073709551615

/-- A number as a double. -/
def Number.toFloat : Number → Float
  | .integer value => Float.ofInt value
  | .float value => value

end Json

end EntityQuery

import EntityQuery.Calendar.Timestamp
import EntityQuery.Json.Printer
import EntityQuery.Value.Uuid

/-!
# Values

The values of an entity's properties, and the bare text of a value in a statement. Whether a
literal is written between quotation marks is decided by the column that it is for, not by the
value. A JSON value becomes a value of its own kind; an integer stays an integer
(`ofJson_integer`).
-/

set_option autoImplicit false

namespace EntityQuery

/-- The value of a property. -/
inductive Value where
  | int (value : Int64)
  | uint (value : UInt64)
  | float (value : Float)
  | string (value : String)
  | boolean (value : Bool)
  | uuid (value : Uuid)
  | date (value : Date)
  | timestamp (value : Timestamp)
  | json (value : Json)
  | null
  deriving Repr, Inhabited

namespace Value

/-- Doubles have their fewest digits, an exact tie goes up, no exponent, and a point only before a
fraction. -/
def numberLayout : Decimal.Layout where
  tie := .up
  plain? := none
  pointZero := false
  notANumber := "NaN"
  infinity := "inf"

/-- Whether the value is null; a JSON null is not. -/
def isNull : Value → Bool
  | .null => true
  | _ => false

/-- The text of a value, without quotation marks. -/
def text : Value → String
  | .int value => toString value.toInt
  | .uint value => toString value.toNat
  | .float value => numberLayout.text value
  | .string value => value
  | .boolean value => if value then "true" else "false"
  | .uuid value => value.text
  | .date value => value.text
  | .timestamp value => value.text
  | .json value => value.compact
  | .null => "null"

/-- The name of a value's kind. -/
def variant : Value → String
  | .int _ => "Int"
  | .uint _ => "Uint"
  | .float _ => "Float"
  | .string _ => "String"
  | .boolean _ => "Boolean"
  | .uuid _ => "Uuid"
  | .date _ => "Date"
  | .timestamp _ => "Timestamp"
  | .json _ => "Json"
  | .null => "Null"

/-- The value of an integer: with a sign if it fits 64 bits with a sign. -/
def ofInteger (value : Int) : Value :=
  if value ≤ Json.maxSigned then .int (Int64.ofInt value) else .uint (UInt64.ofNat value.toNat)

/-- The value of a JSON value; arrays and objects stay what they are. -/
def ofJson : Json → Value
  | .null => .null
  | .bool value => .boolean value
  | .number (.integer value) => ofInteger value
  | .number (.float value) => .float value
  | .string value => .string value
  | value => .json value

theorem ofJson_integer (value : Int) : ofJson (.number (.integer value)) = ofInteger value := rfl

end Value

end EntityQuery

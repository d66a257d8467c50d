import EntityQuery.Calendar.Reader
import EntityQuery.Json.Document
import EntityQuery.Value.Basic

/-!
# Value documents

The JSON form of a value: its kind as the only key of an object that holds its contents, or for null
the name of the kind alone.
-/

set_option autoImplicit false

namespace EntityQuery.Value

open Json (Decoder Fault)

/-- The names of the kinds. -/
def variants : List String :=
  ["Int", "Uint", "Float", "String", "Boolean", "Uuid", "Date", "Timestamp", "Json", "Null"]

/-- The value of a kind from its contents. -/
def ofContents (depth : Nat) (variant : String) (node : Json.Node) : Except Fault Value :=
  match variant with
  | "Int" => do
    let value ← Decoder.integer Json.minSigned Json.maxSigned depth node
    return .int (Int64.ofInt value)
  | "Uint" => do
    let value ← Decoder.integer 0 Json.maxUnsigned depth node
    return .uint (UInt64.ofNat value.toNat)
  | "Float" => do
    let value ← Decoder.number depth node
    return .float value.toFloat
  | "String" => .string <$> Decoder.text depth node
  | "Boolean" => .boolean <$> Decoder.flag depth node
  | "Uuid" => .uuid <$> Decoder.ofText Uuid.ofText? depth node
  | "Date" => .date <$> Decoder.ofText Date.ofText? depth node
  | "Timestamp" => .timestamp <$> Decoder.ofText Timestamp.ofText? depth node
  | "Json" => .json <$> Decoder.any depth node
  | _ =>
    match node with
    | .null => .ok .null
    | _ => .error .malformed

/-- A value. -/
def decoder : Decoder Value :=
  Decoder.variant variants (fun name => if name = "Null" then some .null else none) ofContents

/-- The value that a document holds. -/
def ofDocument (text : String) : Except Fault Value :=
  Json.readDocument decoder text

/-- The contents of a value in its JSON form. -/
def contents : Value → Json
  | .int value => .ofInt value.toInt
  | .uint value => .ofInt value.toNat
  | .float value => .number (.float value)
  | .string value => .string value
  | .boolean value => .bool value
  | .uuid value => .string value.text
  | .date value => .string value.text
  | .timestamp value => .string value.documentText
  | .json value => value
  | .null => .null

/-- The JSON form of a value. -/
def toJson : Value → Json
  | .null => .string "Null"
  | value => .object [(value.variant, value.contents)]

end EntityQuery.Value

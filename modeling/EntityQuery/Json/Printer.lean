import EntityQuery.Decimal.Layout
import EntityQuery.Json.Basic
import EntityQuery.Text.Digit

/-!
# Printing JSON values

The compact form has no white space; the indented form has one entry a line. In strings the
quotation mark, the backslash and the control characters below the space are escaped, all other
characters stand for themselves.
-/

set_option autoImplicit false

namespace EntityQuery.Json

/-- Doubles have their fewest digits, an exact tie goes to the even digit, and a point; from `1e16`
on and below `1e-5` they have an exponent. -/
def numberLayout : Decimal.Layout where
  tie := .even
  plain? := some (-5, 16)
  pointZero := true
  notANumber := "null"
  infinity := "null"

/-- The text of a number. -/
def Number.text : Number → String
  | .integer value => toString value
  | .float value => numberLayout.text value

/-- A character in a string. -/
def escape (c : Char) : List Char :=
  match c with
  | '"' => ['\\', '"']
  | '\\' => ['\\', '\\']
  | '\x08' => ['\\', 'b']
  | '\x0C' => ['\\', 'f']
  | '\n' => ['\\', 'n']
  | '\r' => ['\\', 'r']
  | '\t' => ['\\', 't']
  | c => if c.toNat < 0x20 then ['\\', 'u', '0', '0'] ++ Text.hexDigits 2 c.toNat else [c]

/-- A text in quotation marks. -/
def quoted (text : String) : String :=
  String.ofList ('"' :: text.toList.flatMap escape ++ ['"'])

/-- A text between two marks. -/
def enclosed (first : String) (text : String) (last : String) : String :=
  first ++ text ++ last

mutual

/-- The compact form of a value. -/
def compact : Json → String
  | .null => "null"
  | .bool value => if value then "true" else "false"
  | .number value => value.text
  | .string value => quoted value
  | .array items => enclosed "[" (String.intercalate "," (compactItems items)) "]"
  | .object members => enclosed "\x7b" (String.intercalate "," (compactMembers members)) "\x7d"

/-- The compact forms of the items of an array. -/
def compactItems : List Json → List String
  | [] => []
  | item :: rest => compact item :: compactItems rest

/-- The compact forms of the members of an object. -/
def compactMembers : List (String × Json) → List String
  | [] => []
  | (key, value) :: rest => (quoted key ++ ":" ++ compact value) :: compactMembers rest

end

/-- A line break and the indentation of a level. -/
def newLine (level : Nat) : String :=
  String.ofList ('\n' :: List.replicate (2 * level) ' ')

/-- Entries on lines of their own between two marks, or the marks alone when there are none. -/
def block (level : Nat) (first : String) (entries : List String) (last : String) : String :=
  if entries.isEmpty then first ++ last
  else
    enclosed first
      (newLine (level + 1) ++ String.intercalate ("," ++ newLine (level + 1)) entries ++
        newLine level) last

mutual

/-- The indented form of a value that starts on a line of the level. -/
def indented (level : Nat) : Json → String
  | .array items => block level "[" (indentedItems (level + 1) items) "]"
  | .object members => block level "\x7b" (indentedMembers (level + 1) members) "\x7d"
  | .null => "null"
  | .bool value => if value then "true" else "false"
  | .number value => value.text
  | .string value => quoted value

/-- The indented forms of the items of an array. -/
def indentedItems (level : Nat) : List Json → List String
  | [] => []
  | item :: rest => indented level item :: indentedItems level rest

/-- The indented forms of the members of an object. -/
def indentedMembers (level : Nat) : List (String × Json) → List String
  | [] => []
  | (key, value) :: rest =>
    (quoted key ++ ": " ++ indented level value) :: indentedMembers level rest

end

/-- The indented form of a value. -/
def pretty (value : Json) : String :=
  indented 0 value

end EntityQuery.Json

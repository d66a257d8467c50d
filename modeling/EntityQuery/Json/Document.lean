import EntityQuery.Dictionary
import EntityQuery.Json.Node

/-!
# Reading typed values from JSON documents

A document is read from left to right into the type that is expected, and the first problem decides.
Most problems are only reported as such; a missing or repeated field and an unknown variant name
themselves. A record is an object, in which unknown keys are skipped, or an array of its fields in
order. Containers nest at most `maxDepth` deep.
-/

set_option autoImplicit false

namespace EntityQuery.Json

/-- Why a document cannot be read. -/
inductive Fault where
  /-- It is no JSON text, or does not have the expected shape. -/
  | malformed
  | missingField (field : String)
  | duplicateField (field : String)
  | unknownVariant (variant : String) (expected : List String)
  deriving DecidableEq, Repr

/-- A name in backward quotation marks. -/
def quotedName (name : String) : String := "`" ++ name ++ "`"

/-- The words for a problem that names itself. -/
def Fault.message? : Fault → Option String
  | .malformed => none
  | .missingField field => some ("missing field " ++ quotedName field)
  | .duplicateField field => some ("duplicate field " ++ quotedName field)
  | .unknownVariant variant expected =>
    some ("unknown variant " ++ quotedName variant ++ ", expected one of "
      ++ String.intercalate ", " (expected.map quotedName))

/-- How deep containers nest in a document. -/
def maxDepth : Nat := 127

/-- A reader of nodes below which containers nest at most so many levels deep. -/
abbrev Decoder (α : Type) := (depth : Nat) → Node → Except Fault α

namespace Decoder

variable {α σ : Type}

/-! ## Single values -/

/-- A text. -/
def text : Decoder String
  | _, .string (some value) => .ok value
  | _, _ => .error .malformed

/-- A truth value. -/
def flag : Decoder Bool
  | _, .bool value => .ok value
  | _, _ => .error .malformed

/-- A number. -/
def number : Decoder Number
  | _, .number numeral =>
    match numeral.number? with
    | some value => .ok value
    | none => .error .malformed
  | _, _ => .error .malformed

/-- An integer between the bounds. -/
def integer (least greatest : Int) : Decoder Int := fun depth node => do
  match ← number depth node with
  | .integer value => if least ≤ value ∧ value ≤ greatest then .ok value else .error .malformed
  | .float _ => .error .malformed

/-- A value made from a text, if it can be. -/
def ofText (make? : String → Option α) : Decoder α := fun depth node => do
  match make? (← text depth node) with
  | some value => .ok value
  | none => .error .malformed

/-- A value, or `null` for none. -/
def optional (decoder : Decoder α) : Decoder (Option α)
  | _, .null => .ok none
  | depth, node => some <$> decoder depth node

/-! ## Containers -/

/-- Nothing more when the container was read to its end. -/
def whole (complete : Bool) (value : α) : Except Fault α :=
  if complete then .ok value else .error .malformed

/-- A list. -/
def list (decoder : Decoder α) : Decoder (List α)
  | depth + 1, .array items complete => do
    let values ← items.mapM (decoder depth)
    whole complete values
  | _, _ => .error .malformed

/-- A key of an object. -/
def key : Option String → Except Fault String
  | some key => .ok key
  | none => .error .malformed

/-- A map from texts; of two members with one key the later holds. -/
def dictionary (decoder : Decoder α) : Decoder (Dictionary α)
  | depth + 1, .object members complete => do
    let map ← members.foldlM (fun map (name, node) => do
      let name ← key name
      let value ← decoder depth node
      return map.insert name value) Dictionary.empty
    whole complete map
  | _, _ => .error .malformed

/-! ## Records -/

/-- How the fields of a record are gathered in a draft and made into a value. -/
structure RecordShape (σ α : Type) where
  /-- The fields in order. -/
  fields : List String
  /-- The draft without any field. -/
  start : σ
  /-- The draft with one more member; a key that is no field changes nothing. -/
  read : (depth : Nat) → σ → String → Node → Except Fault σ
  /-- The value of a draft, unless a field is missing. -/
  finish : σ → Except Fault α

/-- A field's value, unless the draft has one already. -/
def once (field : String) (present : Option α) (decoder : Except Fault α) : Except Fault α :=
  if present.isSome then .error (.duplicateField field) else decoder

/-- The value of a field that must be there. -/
def required (field : String) : Option α → Except Fault α
  | some value => .ok value
  | none => .error (.missingField field)

/-- A record: an object, or an array of the fields in order, of which fields at the end that are not
required may be left out. -/
def record (shape : RecordShape σ α) : Decoder α
  | depth + 1, .object members complete => do
    let draft ← members.foldlM (fun draft (name, node) => do
      shape.read depth draft (← key name) node) shape.start
    if complete then shape.finish draft else .error .malformed
  | depth + 1, .array items complete => do
    let draft ← (shape.fields.zip items).foldlM (fun draft (name, node) =>
      shape.read depth draft name node) shape.start
    if complete ∧ items.length ≤ shape.fields.length then
      match shape.finish draft with
      | .ok value => .ok value
      | .error _ => .error .malformed
    else .error .malformed
  | _, _ => .error .malformed

/-! ## Variants -/

/-- A value of one of several variants: the name of a variant without contents, or an object with
the name as its only key. -/
def variant (names : List String) (plain : String → Option α)
    (contents : (depth : Nat) → String → Node → Except Fault α) : Decoder α
  | _, .string (some name) =>
    if name ∈ names then
      match plain name with
      | some value => .ok value
      | none => .error .malformed
    else .error (.unknownVariant name names)
  | depth + 1, .object ((some name, node) :: rest) complete =>
    if name ∈ names then do
      let value ← contents depth name node
      whole (rest.isEmpty && complete) value
    else .error (.unknownVariant name names)
  | _, _ => .error .malformed

/-- A value of one of several variants without contents; in an object `null` stands for them. -/
def choice (names : List String) (plain : String → Option α) : Decoder α :=
  variant names plain fun _ name node =>
    match node, plain name with
    | .null, some value => .ok value
    | _, _ => .error .malformed

end Decoder

/-! ## Values of any shape -/

mutual

/-- A node as a value. -/
def Node.toJson : Nat → Node → Except Fault Json
  | _, .null => .ok .null
  | _, .bool value => .ok (.bool value)
  | _, .number numeral =>
    match numeral.number? with
    | some value => .ok (.number value)
    | none => .error .malformed
  | _, .string (some value) => .ok (.string value)
  | depth + 1, .array items complete => do
    let values ← Node.toJsons depth items
    if complete then .ok (.array values) else .error .malformed
  | depth + 1, .object members complete => do
    let entries ← Node.toMembers depth [] members
    if complete then .ok (.object entries) else .error .malformed
  | _, _ => .error .malformed

/-- Nodes as values. -/
def Node.toJsons (depth : Nat) : List Node → Except Fault (List Json)
  | [] => .ok []
  | node :: rest => do
    let value ← Node.toJson depth node
    let values ← Node.toJsons depth rest
    return value :: values

/-- Members added in ascending order of the keys to those before them; of two members with one key
the later holds. -/
def Node.toMembers (depth : Nat) (before : List (String × Json)) :
    List (Option String × Node) → Except Fault (List (String × Json))
  | [] => .ok before
  | (some name, node) :: rest => do
    let value ← Node.toJson depth node
    Node.toMembers depth (Dictionary.insertEntry name value before) rest
  | (none, _) :: _ => .error .malformed

end

/-- A value of any shape. -/
def Decoder.any : Decoder Json := Node.toJson

/-- The value of a document. -/
def readDocument {α : Type} (decoder : Decoder α) (text : String) : Except Fault α := do
  let (node, complete) := Node.ofText text
  let value ← decoder maxDepth node
  if complete then .ok value else .error .malformed

/-- The value that a text is written as. -/
def ofText? (text : String) : Option Json :=
  (readDocument Decoder.any text).toOption

end EntityQuery.Json

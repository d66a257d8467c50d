import EntityQuery.Instance.Property
import EntityQuery.Json.Document

/-!
# Instances

An instance of an entity as mutations see it: the name of its entity and a value for each property
that is defined. An instance comes from a list of fields, or from a record, whose properties are
JSON values and which is read from a document.
-/

set_option autoImplicit false

namespace EntityQuery

open Json (Decoder Fault)
open Json.Decoder (once required)

/-- An instance of an entity. -/
structure Instance where
  /-- The name of the entity. -/
  entity : String
  /-- The value of a property, unless it is undefined. -/
  property : String → Option Value

/-- The instance with these properties; of two fields for one property the earlier holds. -/
def Instance.ofFields (entity : String) (fields : List (String × Option Value)) : Instance :=
  ⟨entity, fun property => (fields.lookup property).join⟩

/-- An instance whose properties are JSON values. -/
structure Record where
  entity : String
  values : Dictionary Json

namespace Record

/-- The record as an instance; a null is defined. -/
def toInstance (record : Record) : Instance :=
  ⟨record.entity, fun property => (record.values.find? property).map Value.ofJson⟩

/-- The fields of a record read so far. -/
structure Draft where
  entity? : Option String := none
  values? : Option (Dictionary Json) := none

/-- One more member of a record. -/
def Draft.read (depth : Nat) (draft : Draft) (key : String) (node : Json.Node) :
    Except Fault Draft :=
  match key with
  | "entity" => do
    let value ← once key draft.entity? (Decoder.text depth node)
    return { draft with entity? := some value }
  | "values" => do
    let value ← once key draft.values? (Decoder.dictionary Decoder.any depth node)
    return { draft with values? := some value }
  | _ => .ok draft

/-- The record of a draft. -/
def Draft.finish (draft : Draft) : Except Fault Record := do
  let entity ← required "entity" draft.entity?
  return { entity, values := draft.values?.getD Dictionary.empty }

/-- A record. -/
def decoder : Decoder Record :=
  Decoder.record
    { fields := ["entity", "values"]
      start := {}
      read := Draft.read
      finish := Draft.finish }

/-- The record that a document holds. -/
def ofDocument (text : String) : Except Fault Record :=
  Json.readDocument decoder text

end Record

end EntityQuery

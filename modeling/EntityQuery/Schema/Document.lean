import EntityQuery.Json.Document
import EntityQuery.Schema.Registry

/-!
# Schema documents

The JSON form of entities and schemas. A column needs its property, a relation its entity, an
entity its name and table; everything else has a default and may be left out. Unset names,
references and identifiers are left out when an entity is written.
-/

set_option autoImplicit false

namespace EntityQuery

open Json (Decoder Fault)
open Json.Decoder (once required)

/-! ## Names of kinds and multiplicities -/

/-- The word for a kind of column. -/
def ColumnKind.name : ColumnKind → String
  | .string => "string"
  | .date => "date"
  | .number => "number"
  | .other => "other"

/-- The kinds of columns. -/
def ColumnKind.all : List ColumnKind := [.string, .date, .number, .other]

/-- The kind of column that a word names. -/
def ColumnKind.ofName? (name : String) : Option ColumnKind :=
  all.find? (·.name == name)

/-- The word for a multiplicity. -/
def Multiplicity.name : Multiplicity → String
  | .manyToOne => "many_to_one"
  | .oneToOne => "one_to_one"
  | .oneToMany => "one_to_many"
  | .manyToMany => "many_to_many"

/-- The multiplicities. -/
def Multiplicity.all : List Multiplicity := [.manyToOne, .oneToOne, .oneToMany, .manyToMany]

/-- The multiplicity that a word names. -/
def Multiplicity.ofName? (name : String) : Option Multiplicity :=
  all.find? (·.name == name)

/-! ## Reading -/

/-- The fields of a column read so far. -/
structure ColumnDraft where
  property? : Option String := none
  name? : Option (Option String) := none
  kind? : Option ColumnKind := none
  nullable? : Option Bool := none
  reference? : Option (Option String) := none

/-- One more member of a column. -/
def ColumnDraft.read (depth : Nat) (draft : ColumnDraft) (key : String) (node : Json.Node) :
    Except Fault ColumnDraft :=
  match key with
  | "property" => do
    let value ← once key draft.property? (Decoder.text depth node)
    return { draft with property? := some value }
  | "name" => do
    let value ← once key draft.name? (Decoder.optional Decoder.text depth node)
    return { draft with name? := some value }
  | "type" => do
    let kinds := ColumnKind.all.map ColumnKind.name
    let value ← once key draft.kind? (Decoder.choice kinds ColumnKind.ofName? depth node)
    return { draft with kind? := some value }
  | "nullable" => do
    let value ← once key draft.nullable? (Decoder.flag depth node)
    return { draft with nullable? := some value }
  | "ref_name" => do
    let value ← once key draft.reference? (Decoder.optional Decoder.text depth node)
    return { draft with reference? := some value }
  | _ => .ok draft

/-- The column of a draft; it is of another kind and nullable unless it says otherwise. -/
def ColumnDraft.finish (draft : ColumnDraft) : Except Fault Column := do
  let property ← required "property" draft.property?
  return {
    property
    name? := draft.name?.getD none
    kind := draft.kind?.getD .other
    nullable := draft.nullable?.getD true
    reference? := draft.reference?.getD none }

/-- A column. -/
def Column.decoder : Decoder Column :=
  Decoder.record
    { fields := ["property", "name", "type", "nullable", "ref_name"]
      start := {}
      read := ColumnDraft.read
      finish := ColumnDraft.finish }

/-- The fields of a relation read so far. -/
structure RelationDraft where
  entity? : Option String := none
  eager? : Option Bool := none
  multiplicity? : Option Multiplicity := none

/-- One more member of a relation. -/
def RelationDraft.read (depth : Nat) (draft : RelationDraft) (key : String) (node : Json.Node) :
    Except Fault RelationDraft :=
  match key with
  | "entity" => do
    let value ← once key draft.entity? (Decoder.text depth node)
    return { draft with entity? := some value }
  | "eager" => do
    let value ← once key draft.eager? (Decoder.flag depth node)
    return { draft with eager? := some value }
  | "kind" => do
    let kinds := Multiplicity.all.map Multiplicity.name
    let value ← once key draft.multiplicity? (Decoder.choice kinds Multiplicity.ofName? depth node)
    return { draft with multiplicity? := some value }
  | _ => .ok draft

/-- The relation of a draft; it is lazy and many to one unless it says otherwise. -/
def RelationDraft.finish (draft : RelationDraft) : Except Fault Relation := do
  let entity ← required "entity" draft.entity?
  return {
    entity
    eager := draft.eager?.getD false
    multiplicity := draft.multiplicity?.getD .manyToOne }

/-- A relation. -/
def Relation.decoder : Decoder Relation :=
  Decoder.record
    { fields := ["entity", "eager", "kind"]
      start := {}
      read := RelationDraft.read
      finish := RelationDraft.finish }

/-- The fields of an entity read so far. -/
structure EntityDraft where
  name? : Option String := none
  table? : Option String := none
  identifier? : Option (Option String) := none
  columns? : Option (List Column) := none
  relations? : Option (Dictionary Relation) := none

/-- One more member of an entity. -/
def EntityDraft.read (depth : Nat) (draft : EntityDraft) (key : String) (node : Json.Node) :
    Except Fault EntityDraft :=
  match key with
  | "name" => do
    let value ← once key draft.name? (Decoder.text depth node)
    return { draft with name? := some value }
  | "table" => do
    let value ← once key draft.table? (Decoder.text depth node)
    return { draft with table? := some value }
  | "id" => do
    let value ← once key draft.identifier? (Decoder.optional Decoder.text depth node)
    return { draft with identifier? := some value }
  | "columns" => do
    let value ← once key draft.columns? (Decoder.list Column.decoder depth node)
    return { draft with columns? := some value }
  | "relations" => do
    let value ← once key draft.relations? (Decoder.dictionary Relation.decoder depth node)
    return { draft with relations? := some value }
  | _ => .ok draft

/-- The entity of a draft. -/
def EntityDraft.finish (draft : EntityDraft) : Except Fault Entity := do
  let name ← required "name" draft.name?
  let table ← required "table" draft.table?
  return {
    name
    table
    identifier? := draft.identifier?.getD none
    columns := draft.columns?.getD []
    relations := draft.relations?.getD Dictionary.empty }

/-- An entity. -/
def Entity.decoder : Decoder Entity :=
  Decoder.record
    { fields := ["name", "table", "id", "columns", "relations"]
      start := {}
      read := EntityDraft.read
      finish := EntityDraft.finish }

/-- The entity that a document holds. -/
def Entity.ofDocument (text : String) : Except Fault Entity :=
  Json.readDocument Entity.decoder text

/-- Why a schema document does not give a schema. -/
inductive SchemaDocumentError where
  | document (fault : Fault)
  | schema (problem : SchemaError)
  deriving DecidableEq, Repr

/-- The schema of a document, which is read to its end before any of its entities is registered. -/
def Schema.ofDocument (text : String) : Except SchemaDocumentError Schema :=
  match Json.readDocument (Decoder.list Entity.decoder) text with
  | .error fault => .error (.document fault)
  | .ok entities => (Schema.empty.registerAll entities).mapError .schema

/-! ## Writing -/

/-- A member for a value that may be unset. -/
def optionalMember (key : String) : Option String → List (String × Json)
  | some value => [(key, .string value)]
  | none => []

/-- A column as a JSON value. -/
def Column.toJson (column : Column) : Json :=
  .object <|
    [("property", .string column.property)] ++ optionalMember "name" column.name?
      ++ [("type", .string column.kind.name), ("nullable", .bool column.nullable)]
      ++ optionalMember "ref_name" column.reference?

/-- A relation as a JSON value. -/
def Relation.toJson (relation : Relation) : Json :=
  .object
    [("entity", .string relation.entity), ("eager", .bool relation.eager),
      ("kind", .string relation.multiplicity.name)]

/-- An entity as a JSON value. -/
def Entity.toJson (entity : Entity) : Json :=
  .object <|
    [("name", .string entity.name), ("table", .string entity.table)]
      ++ optionalMember "id" entity.identifier?
      ++ [("columns", .array (entity.columns.map Column.toJson)),
        ("relations", .object (entity.relations.entries.map fun (property, relation) =>
          (property, relation.toJson)))]

end EntityQuery

import EntityQuery.Dictionary

/-!
# Entities

How an entity is kept in a database: its table, its columns in order, the property that identifies
an instance, and its relations to other entities. A column with a referenced column is a foreign
key. A relation is a hop only where the column of its property is a foreign key (`Entity.hop?`); a
foreign key without a relation is an ordinary column.
-/

set_option autoImplicit false

namespace EntityQuery

/-- What a column holds, as far as its literals depend on it. -/
inductive ColumnKind where
  | string
  | date
  | number
  | other
  deriving DecidableEq, Repr, Inhabited

/-- Texts and dates are written between quotation marks. -/
def ColumnKind.isQuoted : ColumnKind → Bool
  | .string | .date => true
  | .number | .other => false

/-- A column of an entity's table. -/
structure Column where
  /-- The property of the entity that the column holds. -/
  property : String
  /-- The column's own name, where it differs from the property. -/
  name? : Option String
  kind : ColumnKind
  nullable : Bool
  /-- The column that a foreign key refers to. -/
  reference? : Option String
  deriving DecidableEq, Repr, Inhabited

namespace Column

/-- The name of the column in its table. -/
def columnName (column : Column) : String :=
  column.name?.getD column.property

/-- Whether the column refers to a column of another table. -/
def isForeignKey (column : Column) : Bool :=
  column.reference?.isSome

/-- The column that the column refers to, or its own name. -/
def referenceName (column : Column) : String :=
  column.reference?.getD column.columnName

end Column

/-- How many instances stand on either side of a relation. -/
inductive Multiplicity where
  | manyToOne
  | oneToOne
  | oneToMany
  | manyToMany
  deriving DecidableEq, Repr, Inhabited

/-- A relation to another entity. -/
structure Relation where
  /-- The name of the other entity. -/
  entity : String
  /-- Whether the other entity is shown in full with its owner. -/
  eager : Bool
  multiplicity : Multiplicity
  deriving DecidableEq, Repr, Inhabited

/-- How an entity is kept in a database. -/
structure Entity where
  name : String
  table : String
  /-- The property that identifies an instance. -/
  identifier? : Option String
  columns : List Column
  /-- The relations by property. -/
  relations : Dictionary Relation
  deriving DecidableEq, Repr, Inhabited

/-- Why an entity cannot be registered. -/
inductive SchemaError where
  | duplicateEntity (entity : String)
  | relationWithoutForeignKey (entity property : String)
  | unknownIdentifier (entity property : String)
  deriving DecidableEq, Repr

/-- The words for an entity that cannot be registered. -/
def SchemaError.message : SchemaError → String
  | .duplicateEntity entity => "Entity '" ++ entity ++ "' is registered more than once"
  | .relationWithoutForeignKey entity property =>
    "Relation '" ++ entity ++ "." ++ property ++ "' has no foreign-key column with a ref_name"
  | .unknownIdentifier entity property =>
    "Identifier '" ++ entity ++ "." ++ property ++ "' does not name a column"

namespace Entity

/-- The first column of a property. -/
def column? (entity : Entity) (property : String) : Option Column :=
  entity.columns.find? fun column => column.property == property

/-- The relation of a property. -/
def relation? (entity : Entity) (property : String) : Option Relation :=
  entity.relations.find? property

/-- The column that identifies an instance. -/
def identifierColumn? (entity : Entity) : Option Column :=
  entity.identifier?.bind entity.column?

/-- The relation that a column leads along: that of its property, if it is a foreign key. -/
def hop? (entity : Entity) (column : Column) : Option Relation :=
  if column.isForeignKey then entity.relation? column.property else none

/-- Whether the column of a property is a foreign key. -/
def hasForeignKey (entity : Entity) (property : String) : Bool :=
  (entity.column? property).any Column.isForeignKey

/-- An entity in order has a foreign key for every relation and a column for its identifier;
relations are checked in ascending order of their properties, and before the identifier. -/
def validate (entity : Entity) : Except SchemaError Unit :=
  match entity.relations.keys.find? fun property => !entity.hasForeignKey property with
  | some property => .error (.relationWithoutForeignKey entity.name property)
  | none =>
    match entity.identifier? with
    | some property =>
      if (entity.column? property).isSome then .ok ()
      else .error (.unknownIdentifier entity.name property)
    | none => .ok ()

/-- Every relation sits on a foreign key, and the identifier names a column. -/
structure WellFormed (entity : Entity) : Prop where
  foreignKeys : ∀ property ∈ entity.relations.keys, entity.hasForeignKey property = true
  identifier : ∀ property, entity.identifier? = some property →
    (entity.column? property).isSome = true

theorem property_of_column? {entity : Entity} {property : String} {column : Column}
    (found : entity.column? property = some column) : column.property = property := by
  simpa using List.find?_some found

theorem mem_of_column? {entity : Entity} {property : String} {column : Column}
    (found : entity.column? property = some column) : column ∈ entity.columns :=
  List.mem_of_find?_eq_some found

/-- The entities that pass validation are those in order. -/
theorem validate_eq_ok_iff {entity : Entity} : entity.validate = .ok () ↔ entity.WellFormed := by
  unfold validate
  split
  · next property found =>
    have bad := List.find?_some found
    have mem := List.mem_of_find?_eq_some found
    simp only [Bool.not_eq_true', reduceCtorEq, false_iff] at bad ⊢
    intro ordered
    rw [ordered.foreignKeys property mem] at bad
    exact Bool.noConfusion bad
  · next none_bad =>
    have keys : ∀ property ∈ entity.relations.keys, entity.hasForeignKey property = true := by
      simpa using none_bad
    split
    · next property named =>
      split
      · next some_column =>
        refine ⟨fun _ => ⟨keys, fun other same => ?_⟩, fun _ => rfl⟩
        rw [named] at same
        cases same
        exact some_column
      · next no_column =>
        refine ⟨fun impossible => (nomatch impossible), fun ordered => ?_⟩
        exact absurd (ordered.identifier property named) no_column
    · next unnamed =>
      refine ⟨fun _ => ⟨keys, fun other same => ?_⟩, fun _ => rfl⟩
      rw [unnamed] at same
      cases same

/-- In an entity in order, all foreign keys of a property lead along its relation, the first one
included. -/
theorem hop?_of_column? {entity : Entity} (ordered : entity.WellFormed) {column first : Column}
    {relation : Relation} (leads : entity.hop? column = some relation)
    (named : entity.column? column.property = some first) : entity.hop? first = some relation := by
  rw [hop?, Option.ite_none_right_eq_some] at leads
  have key := ordered.foreignKeys column.property (Dictionary.mem_keys_of_find? leads.2)
  rw [hasForeignKey, named] at key
  rw [hop?, property_of_column? named, leads.2]
  exact if_pos key

end Entity

end EntityQuery

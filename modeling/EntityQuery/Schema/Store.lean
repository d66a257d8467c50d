import EntityQuery.Schema.Document

/-!
# Stores of entities

A schema as it is kept while it is built: the entities under their names. An entity is registered
by a change of the store in place (`Change`), which may fail, and then what has been changed by then
would stay. A copy with one more entity and the store of a document come from such changes too.
-/

set_option autoImplicit false

namespace EntityQuery

/-- Entities under their names. -/
structure EntityStore where
  entities : Dictionary Entity := .empty
  deriving DecidableEq, Repr

namespace EntityStore

/-- The store without entities. -/
def empty : EntityStore := {}

/-- The entity of a name. -/
def lookup (store : EntityStore) (name : String) : Option Entity :=
  store.entities.find? name

/-- The names in ascending order. -/
def names (store : EntityStore) : List String :=
  store.entities.keys

/-- The number of entities. -/
def size (store : EntityStore) : Nat :=
  store.entities.entries.length

/-- Whether there are no entities. -/
def isEmpty (store : EntityStore) : Bool :=
  store.entities.entries.isEmpty

/-- A change of a store in place that may fail. -/
abbrev Change := ExceptT SchemaError (StateM EntityStore)

/-- The outcome of a change, and the store after it. -/
def change {α : Type} (store : EntityStore) (steps : Change α) :
    Except SchemaError α × EntityStore :=
  steps.run.run store

/-- An entity that passes validation is added unless its name is taken. -/
def register (entity : Entity) : Change Unit := do
  MonadExcept.ofExcept entity.validate
  if ((← get).lookup entity.name).isSome then
    throw (.duplicateEntity entity.name)
  modify fun store => { store with entities := store.entities.insert entity.name entity }

/-- The entities are registered one after another, up to the first that cannot be. -/
def registerAll (entities : List Entity) : Change Unit :=
  entities.forM register

/-- The store after a change that succeeds. -/
def changed (store : EntityStore) (steps : Change Unit) : Except SchemaError EntityStore :=
  match store.change steps with
  | (.error problem, _) => .error problem
  | (.ok (), later) => .ok later

/-- A copy of the store with one more entity. -/
def with_ (store : EntityStore) (entity : Entity) : Except SchemaError EntityStore :=
  store.changed (register entity)

/-- The store of a document. -/
def ofDocument (text : String) : Except SchemaDocumentError EntityStore :=
  match Json.readDocument (Json.Decoder.list Entity.decoder) text with
  | .error fault => .error (.document fault)
  | .ok entities => (empty.changed (registerAll entities)).mapError .schema

end EntityStore

end EntityQuery

import EntityQuery.Dictionary
import EntityQuery.Mapping.Aliases

/-!
# Alias tables

The aliases of a query as they are kept while it is compiled: a counter for the aliases to come, the
joins, and a map for each question that is asked of them. Both ways of allocating an alias count
it, note it as that of its entity unless the entity has one, and record what it stands for
(`allocate`). What a written name stands for takes two steps, from the name to its alias and on to
the entity (`resolve?`).
-/

set_option autoImplicit false

namespace EntityQuery

/-- The aliases of a query, with a map for each question that is asked of them. -/
structure AliasTable where
  /-- The number of the next alias. -/
  next : Nat := 0
  /-- Each entity with the alias of its first occurrence. -/
  generated : Dictionary String := .empty
  /-- Each alias with the entity that it stands for. -/
  entities : Dictionary String := .empty
  /-- Each written name with its alias. -/
  scopes : Dictionary String := .empty
  /-- The joins in the order of discovery. -/
  joins : List Join := []
  /-- Each alias with its occurrence. -/
  result : Dictionary Occurrence := .empty
  deriving DecidableEq, Repr

namespace AliasTable

/-- A table without aliases. -/
def empty : AliasTable := {}

/-- A new alias for an entity. -/
def allocate (table : AliasTable) (entity : String) : String × AliasTable :=
  let alias_ := aliasName table.next
  (alias_,
    { table with
      next := table.next + 1
      generated := table.generated.insertIfNew entity alias_
      entities := table.entities.insert alias_ entity })

/-- A new alias for an entry of the table clause. The entry is known by the name written after it,
or else by the name of its entity. -/
def bind (table : AliasTable) (entity : String) (written? : Option String) : String × AliasTable :=
  let (alias_, table) := table.allocate entity
  (alias_,
    { table with
      result := table.result.insert alias_ ⟨entity, none⟩
      scopes := table.scopes.insert (written?.getD entity) alias_ })

/-- The entity and the alias that a written name stands for. -/
def resolve? (table : AliasTable) (written : String) : Option (String × String) := do
  let alias_ ← table.scopes.find? written
  let entity ← table.entities.find? alias_
  return (entity, alias_)

/-- The alias of the target of a hop along a column of an owner: that of its first occurrence, or a
new one with its join. -/
def join (table : AliasTable) (owner : Entity) (ownerAlias : String) (column : Column)
    (target : Entity) : String × AliasTable :=
  match table.generated.find? target.name with
  | some alias_ => (alias_, table)
  | none =>
    let (alias_, table) := table.allocate target.name
    (alias_,
      { table with
        joins := table.joins ++
          [{ owner := owner.name
             ownerAlias
             target := target.name
             targetTable := target.table
             targetAlias := alias_
             foreignKey := column.columnName
             reference := column.referenceName }]
        result := table.result.insert alias_ ⟨target.name, some ⟨ownerAlias, column.property⟩⟩ })

end AliasTable

end EntityQuery

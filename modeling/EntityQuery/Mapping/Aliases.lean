import EntityQuery.Json.Basic
import EntityQuery.Schema.Entity

/-!
# Aliases

Which table a query means by a name. Every occurrence of an entity in a query has an alias of its
own, `t0`, `t1`, … in the order of allocation. An occurrence comes from an entry of the table
clause, which binds a written name, or from a hop, which takes the first occurrence of its target
and allocates one only if there is none; an allocating hop is a join. Of two entries under one
written name the later holds (`resolve?_bind`), and joins bind no names (`resolve?_join`).
-/

set_option autoImplicit false

namespace EntityQuery

/-- The alias of the occurrence with a number. -/
def aliasName (number : Nat) : String :=
  "t" ++ toString number

/-- The hop that an occurrence comes from. -/
structure Source where
  /-- The alias of the owner of the relation. -/
  alias_ : String
  property : String
  deriving DecidableEq, Repr

/-- An occurrence of an entity in a query. -/
structure Occurrence where
  entity : String
  /-- The hop that it comes from, unless it is an entry of the table clause. -/
  source? : Option Source
  deriving DecidableEq, Repr

/-- A name written in a table clause. -/
structure Binding where
  written : String
  entity : String
  alias_ : String
  deriving DecidableEq, Repr

/-- A table that a hop adds to a query. -/
structure Join where
  owner : String
  ownerAlias : String
  target : String
  targetTable : String
  targetAlias : String
  /-- The foreign key in the owner's table. -/
  foreignKey : String
  /-- The column of the target's table that the foreign key refers to. -/
  reference : String
  deriving DecidableEq, Repr

/-- The aliases of a query. -/
structure Aliases where
  /-- The occurrences in the order of allocation; the one at place `n` has the alias `aliasName n`.
  -/
  occurrences : List Occurrence := []
  /-- The written names, the latest first. -/
  bindings : List Binding := []
  /-- The joins in the order of discovery. -/
  joins : List Join := []
  deriving DecidableEq, Repr

namespace Aliases

/-- No aliases. -/
def empty : Aliases := {}

/-- The alias of the next occurrence. -/
def next (aliases : Aliases) : String :=
  aliasName aliases.occurrences.length

/-- A new occurrence for an entry of the table clause, and its alias. The entry is known by the
name written after it, or else by the name of its entity. -/
def bind (aliases : Aliases) (entity : String) (written? : Option String) : String × Aliases :=
  (aliases.next,
    { aliases with
      occurrences := aliases.occurrences ++ [⟨entity, none⟩]
      bindings := ⟨written?.getD entity, entity, aliases.next⟩ :: aliases.bindings })

/-- What a written name stands for. -/
def resolve? (aliases : Aliases) (written : String) : Option Binding :=
  aliases.bindings.find? fun binding => binding.written == written

/-- The alias of the first occurrence of an entity. -/
def first? (aliases : Aliases) (entity : String) : Option String :=
  (aliases.occurrences.findIdx? fun occurrence => occurrence.entity == entity).map aliasName

/-- The alias of the target of a hop along a column of an owner. -/
def join (aliases : Aliases) (owner : Entity) (ownerAlias : String) (column : Column)
    (target : Entity) : String × Aliases :=
  match aliases.first? target.name with
  | some alias_ => (alias_, aliases)
  | none =>
    (aliases.next,
      { aliases with
        occurrences := aliases.occurrences ++ [⟨target.name, some ⟨ownerAlias, column.property⟩⟩]
        joins := aliases.joins ++
          [{ owner := owner.name
             ownerAlias
             target := target.name
             targetTable := target.table
             targetAlias := aliases.next
             foreignKey := column.columnName
             reference := column.referenceName }] })

/-- Each alias with its occurrence, in the order of allocation. -/
def entries (aliases : Aliases) : List (String × Occurrence) :=
  aliases.occurrences.zipIdx.map fun (occurrence, number) => (aliasName number, occurrence)

@[simp] theorem resolve?_empty (written : String) : empty.resolve? written = none := rfl

theorem resolve?_bind (aliases : Aliases) (entity written : String) (written? : Option String) :
    (aliases.bind entity written?).2.resolve? written =
      if written = written?.getD entity then
        some ⟨written?.getD entity, entity, aliases.next⟩
      else aliases.resolve? written := by
  unfold bind resolve?
  rw [List.find?_cons]
  by_cases same : written = written?.getD entity
  · simp [same]
  · have differs : (written?.getD entity == written) = false := by
      simpa using fun equal => same equal.symm
    simp [differs, same]

theorem resolve?_join (aliases : Aliases) (owner : Entity) (ownerAlias : String) (column : Column)
    (target : Entity) (written : String) :
    (aliases.join owner ownerAlias column target).2.resolve? written =
      aliases.resolve? written := by
  unfold join
  split <;> rfl

end Aliases

/-- The aliases with their occurrences in ascending order of their texts. -/
def sortedByAlias (entries : List (String × Occurrence)) : List (String × Occurrence) :=
  entries.mergeSort fun earlier later => decide (earlier.1 ≤ later.1)

/-- An occurrence as a JSON value. -/
def Occurrence.toJson (occurrence : Occurrence) : Json :=
  .object <|
    ("entity", .string occurrence.entity) ::
      match occurrence.source? with
      | some source =>
        [("source_alias", .string source.alias_), ("source_property", .string source.property)]
      | none => []

end EntityQuery

import EntityQuery.Mapping.Path

/-!
# Expansion of entities

An entity that is selected in full stands for its columns, each named by the alias and the property,
and for the columns of its eager relations' targets in their turn. An eager relation back to an
entity that is being expanded is left out, so that the expansion ends: each level is a registered
entity that is not yet being expanded, and there are only so many of them.
-/

set_option autoImplicit false

namespace EntityQuery.Schema

/-- The registered entities that are not being expanded. -/
def unvisited (schema : Schema) (visiting : List String) : List Entity :=
  schema.entities.filter fun entity => !visiting.contains entity.name

theorem unvisited_lt {schema : Schema} {visiting : List String} {name : String} {entity : Entity}
    (fresh : name ∉ visiting) (found : schema.lookup name = some entity) :
    (schema.unvisited (name :: visiting)).length < (schema.unvisited visiting).length := by
  have split : schema.unvisited (name :: visiting) =
      (schema.unvisited visiting).filter fun entity => !(entity.name == name) := by
    simp only [unvisited, List.filter_filter]
    congr 1
    funext other
    simp only [List.contains_cons, Bool.not_or]
  rw [split]
  refine List.length_filter_lt_length_iff_exists.2 ⟨entity, ?_, ?_⟩
  · refine List.mem_filter.2 ⟨mem_of_lookup found, ?_⟩
    simpa [schema.name_of_lookup found] using fresh
  · simp [schema.name_of_lookup found]

/-- A column under its name in a full selection. -/
def namedColumn (alias_ : String) (column : Column) : Sql.Expr :=
  .named (.column (Sql.ColumnRef.of alias_ column.columnName)) (alias_ ++ "_" ++ column.property)

/-- The expansion of columns of an entity under an alias, while the entities in `visiting` are being
expanded. -/
def expandColumns (schema : Schema) (visiting : List String) (entity : Entity) (alias_ : String)
    (columns : List Column) (aliases : Aliases) : Except MappingError (List Sql.Expr × Aliases) :=
  match columns with
  | [] => .ok ([], aliases)
  | column :: rest =>
    match entity.hop? column with
    | none => do
      let (exprs, aliases) ← expandColumns schema visiting entity alias_ rest aliases
      return (namedColumn alias_ column :: exprs, aliases)
    | some relation =>
      if relation.eager = false then expandColumns schema visiting entity alias_ rest aliases
      else if visited : relation.entity ∈ visiting then
        expandColumns schema visiting entity alias_ rest aliases
      else
        match found : schema.lookup relation.entity with
        | none => .error (.unknownEntity relation.entity)
        | some target => do
          have := unvisited_lt visited found
          let (targetAlias, aliases) := aliases.join entity alias_ column target
          let (inner, aliases) ←
            expandColumns schema (relation.entity :: visiting) target targetAlias
              target.columns aliases
          let (exprs, aliases) ← expandColumns schema visiting entity alias_ rest aliases
          return (inner ++ exprs, aliases)
termination_by ((schema.unvisited visiting).length, columns.length)

/-- The columns that an entity selected in full under an alias stands for. -/
def expand (schema : Schema) (entity : Entity) (alias_ : String) (aliases : Aliases) :
    Except MappingError (List Sql.Expr × Aliases) :=
  schema.expandColumns [entity.name] entity alias_ entity.columns aliases

end EntityQuery.Schema

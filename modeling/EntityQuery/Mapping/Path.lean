import EntityQuery.Query.Token
import EntityQuery.Schema.Registry
import EntityQuery.Sql.Statement
import EntityQuery.Mapping.Aliases
import EntityQuery.Mapping.Error

/-!
# Paths

A path is a written name and the properties that lead on from its entity. A property whose column
is a hop leads to the target of its relation, which is joined if the query does not have it yet; any
other column ends the path. A path that ends on an entity stands for one of its columns: the
identifier, or where the referencing key is wanted the foreign key of the last hop.
-/

set_option autoImplicit false

namespace EntityQuery

/-- A written name and properties that lead on from it. -/
structure Path where
  head : String
  segments : List String
  deriving DecidableEq, Repr

/-- The path of a text with dots between its parts. -/
def Path.ofText (text : String) : Path :=
  match Text.splitAtChar '.' text with
  | [] => ⟨text, []⟩
  | head :: segments => ⟨head, segments⟩

/-- Where a path ends. -/
inductive Destination where
  /-- On a column that is no hop. -/
  | column (reference : Sql.ColumnRef)
  /-- On an entity, after the last hop along a foreign key, if there was a hop. -/
  | entity (entity : Entity) (alias_ : String) (lastHop? : Option Sql.ColumnRef)
  deriving Repr

/-- What a path that ends on an entity stands for. -/
inductive EntityEnd where
  /-- The identifier of the entity. -/
  | identifier
  /-- The foreign key of the last hop, or without a hop the identifier. -/
  | referencingKey
  deriving DecidableEq, Repr

namespace Registry

/-- The entity of a name that a query uses. -/
def entity (registry : Registry) (name : String) : Except MappingError Entity :=
  match registry.lookup name with
  | some entity => .ok entity
  | none => .error (.unknownEntity name)

/-- Follows properties from an entity under an alias. -/
def follow (registry : Registry) (entity : Entity) (alias_ : String)
    (lastHop? : Option Sql.ColumnRef) :
    List String → Aliases → Except MappingError (Destination × Aliases)
  | [], aliases => .ok (.entity entity alias_ lastHop?, aliases)
  | segment :: rest, aliases =>
    match entity.column? segment with
    | none => .error (.unknownField entity.name segment)
    | some column =>
      let reference := Sql.ColumnRef.of alias_ column.columnName
      match entity.hop? column with
      | some relation => do
        let target ← registry.entity relation.entity
        let (targetAlias, aliases) := aliases.join entity alias_ column target
        registry.follow target targetAlias (some reference) rest aliases
      | none =>
        match rest with
        | [] => .ok (.column reference, aliases)
        | next :: _ => .error (.unknownField entity.name (segment ++ "." ++ next))

/-- Follows a path from the entry of the table clause that its head names. -/
def walk (registry : Registry) (path : Path) (aliases : Aliases) :
    Except MappingError (Destination × Aliases) :=
  match aliases.resolve? path.head with
  | none => .error (.unknownAlias path.head)
  | some binding => do
    let entity ← registry.entity binding.entity
    registry.follow entity binding.alias_ none path.segments aliases

/-- The column that a destination stands for. -/
def columnOf (entityEnd : EntityEnd) : Destination → Except MappingError Sql.ColumnRef
  | .column reference => .ok reference
  | .entity entity alias_ lastHop? =>
    match entityEnd, lastHop? with
    | .referencingKey, some reference => .ok reference
    | _, _ =>
      match entity.identifierColumn? with
      | some column => .ok (Sql.ColumnRef.of alias_ column.columnName)
      | none => .error (.missingIdentifierConfig entity.name)

/-- The column that the text of a path stands for. -/
def field (registry : Registry) (entityEnd : EntityEnd) (text : String) (aliases : Aliases) :
    Except MappingError (Sql.Expr × Aliases) := do
  let (destination, aliases) ← registry.walk (Path.ofText text) aliases
  let reference ← columnOf entityEnd destination
  return (.column reference, aliases)

/-- A token of a clause: a path stands for its column, everything else for itself. -/
def token (registry : Registry) (entityEnd : EntityEnd) (token : Query.Token) (aliases : Aliases) :
    Except MappingError (Sql.Expr × Aliases) :=
  if token.kind = .path then registry.field entityEnd token.lexeme aliases
  else .ok (.raw token.lexeme, aliases)

/-- The tokens of a clause one after another. -/
def tokens (registry : Registry) (entityEnd : EntityEnd) :
    List Query.Token → Aliases → Except MappingError (List Sql.Expr × Aliases)
  | [], aliases => .ok ([], aliases)
  | first :: rest, aliases => do
    let (expr, aliases) ← registry.token entityEnd first aliases
    let (exprs, aliases) ← registry.tokens entityEnd rest aliases
    return (expr :: exprs, aliases)

end Registry

end EntityQuery

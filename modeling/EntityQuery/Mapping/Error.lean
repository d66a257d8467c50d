import EntityQuery.Query.Clauses

/-!
# Mapping errors

Why a query or an instance cannot be mapped to a statement. Every error has a code, the names that
it is about, and a message; a text that cannot be taken apart is a malformed query.
-/

set_option autoImplicit false

namespace EntityQuery

/-- Why a query or an instance cannot be mapped to a statement. -/
inductive MappingError where
  | unknownEntity (entity : String)
  | unknownAlias (written : String)
  | unknownField (entity field : String)
  /-- An entity without an identifier is updated. -/
  | missingIdentifier (entity : String)
  /-- An entity without an identifier is referred to or deleted. -/
  | missingIdentifierConfig (entity : String)
  /-- The identifier of an instance is null or undefined. -/
  | missingIdentifierValue (entity : String)
  | nullNotAllowed (entity property : String)
  | malformedQuery (detail : String)
  | malformedJoin (detail : String)
  deriving DecidableEq, Repr

namespace MappingError

/-- The words for an error. -/
def message : MappingError → String
  | .unknownEntity entity => "Unknown entity '" ++ entity ++ "'"
  | .unknownAlias written => "Unknown alias '" ++ written ++ "'"
  | .unknownField entity field => "Entity '" ++ entity ++ "' has no property '" ++ field ++ "'"
  | .missingIdentifier entity => "Entity '" ++ entity ++ "' declares no identifier column"
  | .missingIdentifierConfig entity => "Entity '" ++ entity ++ "' has no identifier configured"
  | .missingIdentifierValue entity => "Identifier of entity '" ++ entity ++ "' is null or undefined"
  | .nullNotAllowed entity property =>
    "Property '" ++ property ++ "' of entity '" ++ entity ++ "' does not allow null"
  | .malformedQuery detail => "Malformed query: " ++ detail
  | .malformedJoin detail => "Malformed join condition: " ++ detail

/-- The code of an error. -/
def code : MappingError → String
  | .unknownEntity _ => "0010"
  | .unknownAlias _ => "0011"
  | .nullNotAllowed _ _ => "0021"
  | .unknownField _ _ => "0022"
  | .malformedQuery _ => "0100"
  | .malformedJoin _ => "0101"
  | .missingIdentifierValue _ => "0102"
  | .missingIdentifier _ => "0103"
  | .missingIdentifierConfig _ => "0104"

/-- The names that an error is about. -/
def arguments : MappingError → List String
  | .unknownEntity name | .unknownAlias name | .missingIdentifier name
  | .missingIdentifierConfig name | .missingIdentifierValue name => [name]
  | .unknownField entity field => [entity, field]
  | .nullNotAllowed entity property => [entity, property]
  | .malformedQuery _ | .malformedJoin _ => []

/-- A text that cannot be taken apart is a malformed query. -/
def ofText (problem : Query.TextError) : MappingError :=
  .malformedQuery problem.message

end MappingError

end EntityQuery

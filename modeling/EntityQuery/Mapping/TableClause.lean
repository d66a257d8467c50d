import EntityQuery.Mapping.Path

/-!
# Table clauses

A table clause lists entities, separated by commas or joined by keywords. An entity stands after
the start, a comma or `join`, and the word after it is its alias unless it belongs to a join. After
`on` stands an equation of two fields. Everything else is copied, paths as the columns that they
stand for. The first entity is the first table of the select; all the other parts keep their order.
-/

set_option autoImplicit false

namespace EntityQuery

open Query (Token)

/-- What a table clause expects next. -/
inductive TableState where
  /-- An entity. -/
  | entity
  /-- An equation of two fields. -/
  | condition
  /-- Nothing in particular. -/
  | any
  deriving DecidableEq, Repr

/-- The words after an entity that are not its alias. -/
def joinWords : List String :=
  ["left", "right", "outer", "inner", "full", "cross", "join", "on"]

/-- Whether a token after an entity is its alias. -/
def isAliasToken (token : Token) : Bool :=
  token.kind == .word && !joinWords.any (Text.sameIgnoringCase token.lexeme)

/-- Whether a token can be a side of a join condition. -/
def isFieldToken (token : Token) : Bool :=
  token.kind == .path || token.kind == .word

/-- The alias that follows an entity, and the tokens after it. -/
def takeAlias : List Token → Option String × List Token
  | [] => (none, [])
  | token :: rest => if isAliasToken token then (some token.lexeme, rest) else (none, token :: rest)

/-- The right side of the condition whose left side is `left`, and the tokens after it. -/
def takeCondition? (left : Token) : List Token → Option (Token × List Token)
  | mark :: right :: rest =>
    if mark.isMark "=" && isFieldToken left && isFieldToken right then some (right, rest) else none
  | _ => none

theorem length_takeAlias (tokens : List Token) : (takeAlias tokens).2.length ≤ tokens.length := by
  cases tokens with
  | nil => simp [takeAlias]
  | cons token rest =>
    simp only [takeAlias]
    split <;> simp

theorem length_takeCondition? {left right : Token} {tokens rest : List Token}
    (found : takeCondition? left tokens = some (right, rest)) : rest.length < tokens.length := by
  unfold takeCondition? at found
  split at found
  · split at found
    · cases found
      simp only [List.length_cons]
      omega
    · cases found
  · cases found

/-- The error of a join condition that starts with a token. -/
def malformedCondition (token : Token) : MappingError :=
  .malformedJoin ("expected '<field> = <field>' after 'on' near '" ++ token.lexeme ++ "'")

namespace Registry

/-- The parts of a table clause from a state on. -/
def tableItems (registry : Registry) (state : TableState) (tokens : List Token)
    (aliases : Aliases) : Except MappingError (List Sql.TableItem × Aliases) :=
  match tokens with
  | [] => .ok ([], aliases)
  | token :: rest =>
    if token.isMark "," || token.isKeyword "join" then do
      let (items, aliases) ← tableItems registry .entity rest aliases
      return (.token (.raw token.lexeme) :: items, aliases)
    else if token.isKeyword "on" then do
      let (items, aliases) ← tableItems registry .condition rest aliases
      return (.token (.raw token.lexeme) :: items, aliases)
    else
      match state with
      | .entity => do
        have := length_takeAlias rest
        let entity ← registry.entity token.lexeme
        let (alias_, aliases) := aliases.bind entity.name (takeAlias rest).1
        let (items, aliases) ← tableItems registry .any (takeAlias rest).2 aliases
        return (.table ⟨entity.table, alias_⟩ :: items, aliases)
      | .condition =>
        match found : takeCondition? token rest with
        | none => .error (malformedCondition token)
        | some (right, after) => do
          have := length_takeCondition? found
          let (leftColumn, aliases) ← registry.field .referencingKey token.lexeme aliases
          let (rightColumn, aliases) ← registry.field .referencingKey right.lexeme aliases
          let (items, aliases) ← tableItems registry .any after aliases
          return (.token (.equation leftColumn rightColumn) :: items, aliases)
      | .any => do
        let (expr, aliases) ← registry.token .referencingKey token aliases
        let (items, aliases) ← tableItems registry .any rest aliases
        return (.token expr :: items, aliases)
termination_by tokens.length

/-- The first table of the parts of a table clause, and the other parts. -/
def splitFirstTable? : List Sql.TableItem → Option (Sql.TableRef × List Sql.TableItem)
  | [] => none
  | .table reference :: rest => some (reference, rest)
  | .token expr :: rest =>
    (splitFirstTable? rest).map fun (reference, tail) => (reference, .token expr :: tail)

/-- The first table and the other parts of a table clause. -/
def tableClause (registry : Registry) (text : String) (aliases : Aliases) :
    Except MappingError ((Sql.TableRef × List Sql.TableItem) × Aliases) := do
  let tokens ← (Query.tokenize .table text).mapError .ofText
  let (items, aliases) ← registry.tableItems .entity tokens aliases
  match splitFirstTable? items with
  | some split => return (split, aliases)
  | none => .error (.malformedQuery "empty table clause")

end Registry

end EntityQuery

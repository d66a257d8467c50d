import EntityQuery.Mapping.SelectClause
import EntityQuery.Mapping.TableClause

/-!
# Compiled queries

A query is compiled clause by clause: the table clause first, which binds the written names, then
the select list, the condition and the order. Each of them may discover joins, which follow the
first table in the order of their discovery.
-/

set_option autoImplicit false

namespace EntityQuery

/-- A compiled query. -/
structure Compiled where
  select : Sql.Select
  /-- Each alias with the occurrence that it stands for, in the order of allocation. -/
  aliases : List (String × Occurrence)
  deriving Repr

/-- The statement of a compiled query. -/
def Compiled.sql (compiled : Compiled) : String :=
  compiled.select.render

/-- A join as a part of a select. -/
def Join.toLeftJoin (join : Join) : Sql.LeftJoin where
  target := ⟨join.targetTable, join.targetAlias⟩
  condition :=
    .equation (.column (Sql.ColumnRef.of join.ownerAlias join.foreignKey))
      (.column (Sql.ColumnRef.of join.targetAlias join.reference))

namespace Schema

/-- The expressions of a clause that may be absent. -/
def condition (schema : Schema) (marks : Query.MarkSet) (entityEnd : EntityEnd)
    (text? : Option String) (aliases : Aliases) :
    Except MappingError (List Sql.Expr × Aliases) :=
  match text? with
  | none => .ok ([], aliases)
  | some text => do
    let tokens ← (Query.tokenize marks text).mapError .ofText
    schema.tokens entityEnd tokens aliases

/-- The clauses of a query, compiled. -/
def compileClauses (schema : Schema) (clauses : Query.Clauses) :
    Except MappingError Compiled := do
  let ((first, tail), aliases) ← schema.tableClause clauses.table .empty
  let (columns, aliases) ← schema.selectClause clauses.select aliases
  let (filter, aliases) ← schema.condition .filter .identifier clauses.filter? aliases
  let (order, aliases) ← schema.condition .order .referencingKey clauses.order? aliases
  return {
    select := { columns, first, joins := aliases.joins.map Join.toLeftJoin, tail, filter, order }
    aliases := aliases.entries }

/-- A query, compiled over the entities of a schema. -/
def compile (schema : Schema) (query : String) : Except MappingError Compiled := do
  let clauses ← (Query.splitClauses query).mapError .ofText
  schema.compileClauses clauses

end Schema

end EntityQuery

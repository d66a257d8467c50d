import EntityQuery.Sql.Expr

/-!
# SQL statements

The statements that queries and mutations are mapped to, and their text. A select names its first
table, then the joins that hops need, then the rest of the query's table clause.
-/

set_option autoImplicit false

namespace EntityQuery.Sql

/-- A table under an alias. -/
structure TableRef where
  table : String
  alias_ : String
  deriving DecidableEq, Repr

/-- A table joined to those before it where a condition holds, and otherwise without a row. -/
structure LeftJoin where
  target : TableRef
  condition : Expr
  deriving Repr

/-- A part of a table clause. -/
inductive TableItem where
  | table (reference : TableRef)
  /-- A token that is no table: a comma, a keyword, a condition. -/
  | token (expr : Expr)
  deriving Repr

/-- A select statement. -/
structure Select where
  columns : List Expr
  first : TableRef
  joins : List LeftJoin
  tail : List TableItem
  filter : List Expr
  order : List Expr
  deriving Repr

/-- A statement that inserts one row; columns and values are parallel. -/
structure Insert where
  table : String
  columns : List String
  values : List Expr
  deriving Repr

/-- A column of an updated row and its new value. -/
structure Assignment where
  column : String
  value : Expr
  deriving Repr

/-- A statement that updates the rows of a condition. -/
structure Update where
  table : String
  assignments : List Assignment
  condition : Expr
  deriving Repr

/-- A statement that deletes the rows of a condition. -/
structure Delete where
  table : String
  condition : Expr
  deriving Repr

/-- The text of a table under an alias. -/
def TableRef.render (reference : TableRef) : String :=
  reference.table ++ " " ++ reference.alias_

/-- The text of a join. -/
def LeftJoin.render (join : LeftJoin) : String :=
  "left join " ++ join.target.render ++ " on " ++ join.condition.render

/-- The text of a part of a table clause. -/
def TableItem.render : TableItem → String
  | .table reference => reference.render
  | .token expr => expr.render

/-- The table that a part of a table clause introduces. -/
def TableItem.table? : TableItem → Option TableRef
  | .table reference => some reference
  | .token _ => none

/-- The text of the part of a select that names its tables. -/
def Select.renderTables (select : Select) : String :=
  String.intercalate " "
    (select.first.render :: select.joins.map LeftJoin.render ++ select.tail.map TableItem.render)

/-- A clause of expressions after its keyword, or nothing when there are none. -/
def renderClause (keyword : String) (exprs : List Expr) : String :=
  if exprs.isEmpty then "" else keyword ++ renderList " " exprs

/-- The text of a select statement. -/
def Select.render (select : Select) : String :=
  "select " ++ renderList "," select.columns ++ " from " ++ select.renderTables
    ++ renderClause " where " select.filter ++ renderClause " order by " select.order

/-- The text of an insert statement. -/
def Insert.render (insert : Insert) : String :=
  "insert into " ++ insert.table ++ " (" ++ String.intercalate "," insert.columns ++ ") values ("
    ++ renderList "," insert.values ++ ")"

/-- The text of an assignment. -/
def Assignment.render (assignment : Assignment) : String :=
  assignment.column ++ "=" ++ assignment.value.render

/-- The text of an update statement. -/
def Update.render (update : Update) : String :=
  "update " ++ update.table ++ " set "
    ++ String.intercalate "," (update.assignments.map Assignment.render) ++ " where "
    ++ update.condition.render

/-- The text of a delete statement. -/
def Delete.render (delete : Delete) : String :=
  "delete from " ++ delete.table ++ " where " ++ delete.condition.render

end EntityQuery.Sql

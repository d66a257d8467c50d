import EntityQuery.Text.Word

/-!
# Dialects

What differs between databases around a statement: how a window of its rows is chosen, how tables
and rows are locked, and how an insert gives back the identifier of the new row.
-/

set_option autoImplicit false

namespace EntityQuery.Sql

/-- A database with a dialect of its own. -/
inductive Dialect where
  | postgres
  | mysql
  deriving DecidableEq, Repr

/-- What is locked, and against what. -/
inductive Lock where
  | tableRead
  | tableWrite
  | rowRead
  | rowWrite
  deriving DecidableEq, Repr

namespace Dialect

/-- The name of the database. -/
def name : Dialect → String
  | .postgres => "PostgreSQL"
  | .mysql => "MySQL"

/-- The dialect that a name in any case stands for. -/
def ofName? (name : String) : Option Dialect :=
  if ["postgres", "postgresql", "pg"].any (Text.sameIgnoringCase name) then some .postgres
  else if Text.sameIgnoringCase name "mysql" then some .mysql
  else none

/-- A bound on rows; zero is none. -/
def bound? (rows? : Option UInt64) : Option UInt64 :=
  rows?.filter (· ≠ 0)

/-- The text of a number of rows. -/
def rowsText (rows : UInt64) : String :=
  toString rows.toNat

/-- The largest number of rows. -/
def allRows : UInt64 := 18446744073709551615

/-- The text that chooses the rows from `start` on, `limit` of them; MySQL has no start without a
limit. -/
def window (dialect : Dialect) (start? limit? : Option UInt64) : String :=
  match dialect, bound? start?, bound? limit? with
  | _, none, none => ""
  | _, none, some limit => " LIMIT " ++ rowsText limit
  | .postgres, some start, none => " OFFSET " ++ rowsText start
  | .postgres, some start, some limit => " LIMIT " ++ rowsText limit ++ " OFFSET " ++ rowsText start
  | .mysql, some start, limit? =>
    " LIMIT " ++ rowsText start ++ "," ++ rowsText (limit?.getD allRows)

/-- A statement with the choice of a window of its rows. -/
def paginate (dialect : Dialect) (statement : String) (start? limit? : Option UInt64) : String :=
  statement ++ dialect.window start? limit?

/-- A table with the name of its schema in front, if there is one. -/
def qualified (schema? : Option String) (table : String) : String :=
  match schema? with
  | some schema => schema ++ "." ++ table
  | none => table

/-- The tables with what follows each of them, between commas. -/
def tableList (schema? : Option String) (mode : String) (tables : List String) : String :=
  String.intercalate "," (tables.map fun table => qualified schema? table ++ mode)

/-- The statement that locks tables, or the text that makes a select lock its rows. -/
def lock (dialect : Dialect) (lock : Lock) (tables : List String)
    (schema? : Option String) : String :=
  match dialect, lock with
  | .postgres, .tableRead => "LOCK TABLE " ++ tableList schema? "" tables ++ " IN SHARE MODE"
  | .postgres, .tableWrite => "LOCK TABLE " ++ tableList schema? "" tables ++ " IN EXCLUSIVE MODE"
  | .postgres, .rowRead => "FOR SHARE"
  | .postgres, .rowWrite => "FOR UPDATE"
  | .mysql, .tableRead => "LOCK TABLES " ++ tableList schema? " READ" tables
  | .mysql, .tableWrite => "LOCK TABLES " ++ tableList schema? " WRITE" tables
  | .mysql, .rowRead => "LOCK IN SHARE MODE"
  | .mysql, .rowWrite => "FOR UPDATE"

/-- The text that makes an insert give back the identifier; empty where there is none. -/
def returning (dialect : Dialect) (identifier : String) : String :=
  match dialect with
  | .postgres => "RETURNING " ++ identifier
  | .mysql => ""

end Dialect

end EntityQuery.Sql

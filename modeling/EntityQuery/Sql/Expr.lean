/-!
# SQL expressions

The expressions of the generated statements, and their text. Values stand in a statement as
literals, so an expression is text through and through; what is kept apart are the references to
columns, which name a column of the schema, from the texts that are copied out of a query.
-/

set_option autoImplicit false

namespace EntityQuery.Sql

/-- A column, qualified by the alias of its table or bare. -/
structure ColumnRef where
  qualifier? : Option String
  name : String
  deriving DecidableEq, Repr

/-- A column of the table with an alias. -/
def ColumnRef.of (alias_ name : String) : ColumnRef := ⟨some alias_, name⟩

/-- The text of a column. -/
def ColumnRef.render (column : ColumnRef) : String :=
  match column.qualifier? with
  | some qualifier => qualifier ++ "." ++ column.name
  | none => column.name

/-- An expression of a statement. -/
inductive Expr where
  | column (reference : ColumnRef)
  /-- An expression under a name, as in `t0.name as t0_name`. -/
  | named (expr : Expr) (name : String)
  | call (function : String) (arguments : List Expr)
  /-- Equality in a condition, as in `t0.id = t1.id`. -/
  | equation (left right : Expr)
  /-- Equality without spaces, as in an assignment `name='x'`. -/
  | assignment (left right : Expr)
  /-- A value as it stands in a statement. -/
  | literal (text : String)
  /-- A text copied from a query. -/
  | raw (text : String)
  deriving Repr, Inhabited

mutual

/-- The text of an expression. -/
def Expr.render : Expr → String
  | .column reference => reference.render
  | .named expr name => expr.render ++ " as " ++ name
  | .call function arguments =>
    function ++ "(" ++ String.intercalate "," (Expr.renderEach arguments) ++ ")"
  | .equation left right => left.render ++ " = " ++ right.render
  | .assignment left right => left.render ++ "=" ++ right.render
  | .literal text => text
  | .raw text => text

/-- The texts of expressions. -/
def Expr.renderEach : List Expr → List String
  | [] => []
  | expr :: rest => expr.render :: Expr.renderEach rest

end

/-- The texts of expressions with a separator between neighbours. -/
def renderList (separator : String) (exprs : List Expr) : String :=
  String.intercalate separator (Expr.renderEach exprs)

theorem Expr.renderEach_eq_map (exprs : List Expr) :
    Expr.renderEach exprs = exprs.map Expr.render := by
  induction exprs with
  | nil => rfl
  | cons expr rest ih => rw [Expr.renderEach, ih, List.map_cons]

end EntityQuery.Sql

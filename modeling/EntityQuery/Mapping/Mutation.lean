import EntityQuery.Instance.Basic
import EntityQuery.Schema.Registry
import EntityQuery.Sql.Statement
import EntityQuery.Text.Word
import EntityQuery.Mapping.Error

/-!
# Mutations

The statements that write one instance to its table. An insert has every defined property; an
update has every column that is no foreign key and writes null for undefined properties, where the
column allows it; an update and a delete find the row by the identifier, which must have a value.
-/

set_option autoImplicit false

namespace EntityQuery

/-- What is done with an instance. -/
inductive Mutation where
  | insert
  | update
  | delete
  deriving DecidableEq, Repr

/-- The word for a mutation. -/
def Mutation.name : Mutation → String
  | .insert => "insert"
  | .update => "update"
  | .delete => "delete"

/-- The mutation that a word in any case stands for, or the words for an unknown one. -/
def Mutation.ofName (name : String) : Except String Mutation :=
  match [Mutation.insert, .update, .delete].find? (Text.sameIgnoringCase name ·.name) with
  | some mutation => .ok mutation
  | none => .error ("unknown mutation kind '" ++ Text.lowerAscii name ++ "'")

/-- A value as it stands in a statement for a column: between quotation marks, if the column holds
texts or dates and the value is not null. -/
def Column.literal (column : Column) (value : Value) : Sql.Expr :=
  if !value.isNull && column.kind.isQuoted then .literal ("'" ++ value.text ++ "'")
  else .literal value.text

namespace Entity

/-- The names and the values of an insert, with those of one more column if its property is defined.
-/
def addColumn (instance_ : Instance) (row : List String × List Sql.Expr) (column : Column) :
    List String × List Sql.Expr :=
  match instance_.property column.property with
  | some value => (row.1 ++ [column.columnName], row.2 ++ [column.literal value])
  | none => row

/-- The statement that inserts an instance. -/
def insert (entity : Entity) (instance_ : Instance) : Sql.Insert :=
  let (columns, values) := entity.columns.foldl (addColumn instance_) ([], [])
  { table := entity.table, columns, values }

/-- The value of an identifier in a statement, which is neither null nor undefined. -/
def identifierValue (entity : Entity) (column : Column) (instance_ : Instance) :
    Except MappingError Sql.Expr :=
  match instance_.property column.property with
  | some value =>
    if value.isNull then .error (.missingIdentifierValue entity.name)
    else .ok (column.literal value)
  | none => .error (.missingIdentifierValue entity.name)

/-- The new value of a column; an undefined property is null. -/
def assignment (entity : Entity) (instance_ : Instance) (column : Column) :
    Except MappingError Sql.Assignment :=
  let value := (instance_.property column.property).getD .null
  if value.isNull && !column.nullable then .error (.nullNotAllowed entity.name column.property)
  else .ok ⟨column.columnName, column.literal value⟩

/-- A column without a table. -/
def bareColumn (column : Column) : Sql.Expr :=
  .column ⟨none, column.columnName⟩

/-- The statement that updates an instance. -/
def update (entity : Entity) (instance_ : Instance) : Except MappingError Sql.Update :=
  match entity.identifierColumn? with
  | none => .error (.missingIdentifier entity.name)
  | some identifier => do
    let assignments ←
      (entity.columns.filter fun column => !column.isForeignKey).mapM (entity.assignment instance_)
    let value ← entity.identifierValue identifier instance_
    return {
      table := entity.table
      assignments
      condition := .assignment (bareColumn identifier) value }

/-- The statement that deletes an instance. -/
def delete (entity : Entity) (instance_ : Instance) : Except MappingError Sql.Delete :=
  match entity.identifierColumn? with
  | none => .error (.missingIdentifierConfig entity.name)
  | some identifier => do
    let value ← entity.identifierValue identifier instance_
    return { table := entity.table, condition := .equation (bareColumn identifier) value }

end Entity

/-- The statement that does something with an instance of a registered entity. -/
def Schema.mutate (schema : Schema) (mutation : Mutation) (instance_ : Instance) :
    Except MappingError String :=
  match schema.lookup instance_.entity with
  | none => .error (.unknownEntity instance_.entity)
  | some entity =>
    match mutation with
    | .insert => .ok (entity.insert instance_).render
    | .update => Sql.Update.render <$> entity.update instance_
    | .delete => Sql.Delete.render <$> entity.delete instance_

end EntityQuery

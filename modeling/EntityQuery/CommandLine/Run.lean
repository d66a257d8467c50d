import EntityQuery.CommandLine.Help
import EntityQuery.Json.Printer
import EntityQuery.Schema.Document
import EntityQuery.Mapping.Query

/-!
# Running commands

What a command prints, given the contents of the files that it names, or why it fails. The schema
is read first, then the dialect is chosen, then a record is read, and then the query or the record
is mapped.
-/

set_option autoImplicit false

namespace EntityQuery.CommandLine

/-- Why a command fails. -/
inductive Failure where
  /-- The arguments are no command. -/
  | usage
  | unreadableSchema (path : String)
  | schema (problem : SchemaDocumentError)
  | unsupportedDialect (name : String)
  | unreadableRecord (path : String)
  | record (fault : Json.Fault)
  | mapping (error : MappingError)
  deriving DecidableEq, Repr

/-- The words for a document that does not have the expected shape. -/
def faultText (fault : Json.Fault) : String :=
  fault.message?.getD "malformed document"

/-- The words for a failure. -/
def Failure.message : Failure → String
  | .usage => "The arguments are not understood"
  | .unreadableSchema path => "Failed to read schema file '" ++ path ++ "'"
  | .schema (.document fault) => "Failed to parse schema JSON: " ++ faultText fault
  | .schema (.schema problem) => "Failed to load the entity schema: " ++ problem.message
  | .unsupportedDialect name => "Unsupported dialect: " ++ name
  | .unreadableRecord path => "Failed to read input file '" ++ path ++ "'"
  | .record fault => "Failed to deserialize the record file: " ++ faultText fault
  | .mapping error => "Translation failed: " ++ error.message

/-- The exit code of a failure. -/
def Failure.exitCode : Failure → Nat
  | .usage => 2
  | _ => 1

/-- The files that a command reads. -/
def Command.files : Command → List String
  | .version | .help _ => []
  | .compile options => [options.schema]
  | .mutate options => [options.schema, options.record]
  | .schema path => [path]

/-- The name and version of the program. -/
def versionText : String := "rql 0.1.0"

/-- The texts on lines of their own; empty ones are left out. -/
def lines (texts : List String) : String :=
  String.join ((texts.filter fun text => !text.isEmpty).map fun text => text ++ "\n")

/-- The schema of a file. -/
def loadSchema (read? : String → Option String) (path : String) : Except Failure Schema :=
  match read? path with
  | none => .error (.unreadableSchema path)
  | some text => (Schema.ofDocument text).mapError .schema

/-- The record of a file. -/
def loadRecord (read? : String → Option String) (path : String) : Except Failure Record :=
  match read? path with
  | none => .error (.unreadableRecord path)
  | some text => (Record.ofDocument text).mapError .record

/-- The dialect of a name. -/
def chooseDialect (name : String) : Except Failure Sql.Dialect :=
  match Sql.Dialect.ofName? name with
  | some dialect => .ok dialect
  | none => .error (.unsupportedDialect name)

/-! ## Queries -/

/-- What is reported of a compiled query. -/
structure Report where
  dialect : Sql.Dialect
  statements : List String
  /-- The aliases in ascending order. -/
  aliases : List (String × Occurrence)
  deriving Repr

/-- The tables of aliases, one for each. -/
def tablesOf (schema : Schema) (aliases : List (String × Occurrence)) : List String :=
  aliases.filterMap fun (_, occurrence) => (schema.lookup occurrence.entity).map Entity.table

/-- The statements of a query: with a lock of tables a statement before it, with a lock of rows a
text after it. -/
def statements (schema : Schema) (dialect : Sql.Dialect) (options : CompileOptions)
    (compiled : Compiled) : List String :=
  let query := dialect.paginate compiled.sql options.start? options.limit?
  let tables := tablesOf schema (sortedByAlias compiled.aliases)
  match options.lock? with
  | none => [query]
  | some .rowRead => [query ++ " " ++ dialect.lock .rowRead [] none]
  | some .rowWrite => [query ++ " " ++ dialect.lock .rowWrite [] none]
  | some lock => [dialect.lock lock tables options.lockSchema?, query]

/-- The report of a query. -/
def report (read? : String → Option String) (options : CompileOptions) : Except Failure Report := do
  let schema ← loadSchema read? options.schema
  let dialect ← chooseDialect options.dialect
  let compiled ← (schema.compile options.query).mapError .mapping
  return {
    dialect
    statements := statements schema dialect options compiled
    aliases := sortedByAlias compiled.aliases }

/-- Aliases as a JSON value. -/
def aliasesToJson (aliases : List (String × Occurrence)) : Json :=
  .object (aliases.map fun (alias_, occurrence) => (alias_, occurrence.toJson))

/-- A report as a JSON value. -/
def Report.toJson (report : Report) : Json :=
  .object
    [("dialect", .string report.dialect.name),
      ("statements", .array (report.statements.map .string)),
      ("aliases", aliasesToJson report.aliases)]

/-- What is printed of a report. -/
def Report.text (report : Report) (json : Bool) : String :=
  if json then report.toJson.pretty ++ "\n" else lines report.statements

/-! ## Instances -/

/-- The statement of a mutation; an insert may give back the identifier. -/
def mutationStatement (read? : String → Option String) (options : MutateOptions) :
    Except Failure String := do
  let schema ← loadSchema read? options.schema
  let dialect ← chooseDialect options.dialect
  let record ← loadRecord read? options.record
  let statement ← (schema.mutate options.mutation record.toInstance).mapError .mapping
  if options.returning && options.mutation == .insert then
    let identifier? := (schema.lookup record.entity).bind Entity.identifierColumn?
    let returning := (identifier?.map fun column => dialect.returning column.columnName).getD ""
    return if returning.isEmpty then statement else statement ++ " " ++ returning
  else return statement

/-! ## Schemas -/

/-- A line about an entity. -/
def entityLine (entity : Entity) : String :=
  entity.name ++ " -> " ++ entity.table ++ " (" ++ toString entity.columns.length ++ " columns)"

/-- A line about each entity, in ascending order of their names. -/
def listing (schema : Schema) : String :=
  lines (schema.names.filterMap fun name => (schema.lookup name).map entityLine)

/-! ## Commands -/

/-- What a command prints. -/
def Command.run (read? : String → Option String) : Command → Except Failure String
  | .version => .ok (lines [versionText])
  | .help topic => .ok topic.text
  | .compile options => (·.text options.json) <$> report read? options
  | .mutate options => (lines [·]) <$> mutationStatement read? options
  | .schema path => listing <$> loadSchema read? path

/-- What the program prints for its arguments. -/
def run (read? : String → Option String) (arguments : List String) : Except Failure String :=
  match readCommand? arguments with
  | some command => command.run read?
  | none => .error .usage

end EntityQuery.CommandLine

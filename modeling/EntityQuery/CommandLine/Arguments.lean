import EntityQuery.Sql.Dialect
import EntityQuery.Text.Digit
import EntityQuery.Mapping.Mutation

/-!
# Arguments of the command line

A command and its options. Every option has a long name and is given at most once, in any order;
its value follows as the next argument or after an equals sign, and is checked when it is read. An
argument that starts with a hyphen is no value, unless it is nothing but the hyphen. There are no
other arguments. Where help is asked for, nothing after it is read.
-/

set_option autoImplicit false

namespace EntityQuery.CommandLine

/-! ## Options -/

/-- An option that a command knows. -/
structure CommandOption where
  name : String
  /-- What it is for. -/
  purpose : String
  required : Bool := false
  takesValue : Bool := true
  /-- Whether a text is a value of the option. -/
  accepts : String → Bool := fun _ => true
  /-- A remark on its values. -/
  remark : String := ""

/-- The options that were given. -/
structure Options where
  values : List (String × String) := []
  flags : List String := []
  deriving DecidableEq, Repr

namespace Options

/-- Whether an option was given. -/
def has (options : Options) (name : String) : Bool :=
  options.flags.contains name || (options.values.lookup name).isSome

/-- One more option with a value. -/
def addValue? (options : Options) (known : List CommandOption) (name value : String) :
    Option Options :=
  let accepted := known.any fun option =>
    option.name == name && option.takesValue && option.accepts value
  if accepted && !options.has name then
    some { options with values := options.values ++ [(name, value)] }
  else none

/-- One more option without a value. -/
def addFlag? (options : Options) (name : String) : Option Options :=
  if options.has name then none else some { options with flags := options.flags ++ [name] }

/-- The value of an option that must be given. -/
def required? (options : Options) (name : String) : Option String :=
  options.values.lookup name

/-- The value of an option that may be left out, if it can be read. -/
def optional? {α : Type} (options : Options) (name : String) (read? : String → Option α) :
    Option (Option α) :=
  match options.values.lookup name with
  | none => some none
  | some value => (read? value).map some

end Options

/-- The name of a long option, and its value if that is part of the argument. -/
def longOption? (argument : String) : Option (String × Option String) :=
  match argument.toList with
  | '-' :: '-' :: rest =>
    match rest.dropWhile (· ≠ '=') with
    | [] => some (String.ofList rest, none)
    | _ :: value => some (String.ofList (rest.takeWhile (· ≠ '=')), some (String.ofList value))
  | _ => none

/-- Whether an argument can be the value of the option before it. -/
def isValue (argument : String) : Bool :=
  match argument.toList with
  | '-' :: _ :: _ => false
  | _ => true

/-- Whether an argument asks for help; the short option may have others after it. -/
def asksHelp (argument : String) : Bool :=
  argument == "--help" || ['-', 'h'].isPrefixOf argument.toList

/-- What a list of arguments after a command is. -/
inductive Reading where
  | given (options : Options)
  /-- Help is asked for. -/
  | help
  deriving DecidableEq, Repr

/-- The options of a list of arguments, in addition to those given before them, up to where help is
asked for. Two hyphens end the options, and nothing may follow them. -/
def readOptions? (known : List CommandOption) (before : Options) : List String → Option Reading
  | [] => some (.given before)
  | ["--"] => some (.given before)
  | argument :: rest =>
    if asksHelp argument then some .help
    else do
      match ← longOption? argument with
      | (name, some value) => readOptions? known (← before.addValue? known name value) rest
      | (name, none) =>
        if known.any fun option => option.name == name && !option.takesValue then
          readOptions? known (← before.addFlag? name) rest
        else
          match rest with
          | [] => none
          | value :: rest =>
            if isValue value then
              readOptions? known (← before.addValue? known name value) rest
            else none

/-! ## Commands -/

/-- A number of rows: decimal digits, perhaps after a plus sign. -/
def readRows? (text : String) : Option UInt64 :=
  let digits := match text.toList with
    | '+' :: rest => rest
    | digits => digits
  let value := Text.digitsValue digits
  if !digits.isEmpty && digits.all Char.isDigit && value < UInt64.size
  then some (UInt64.ofNat value)
  else none

/-- The lock that a word stands for. -/
def readLock? : String → Option Sql.Lock
  | "table-read" => some .tableRead
  | "table-write" => some .tableWrite
  | "row-read" => some .rowRead
  | "row-write" => some .rowWrite
  | _ => none

/-- What a compiled query is wrapped in, and how it is printed. -/
structure CompileOptions where
  schema : String
  query : String
  json : Bool
  dialect : String
  start? : Option UInt64
  limit? : Option UInt64
  lock? : Option Sql.Lock
  lockSchema? : Option String
  deriving DecidableEq, Repr

/-- What is done with the instance of a record. -/
structure MutateOptions where
  schema : String
  record : String
  mutation : Mutation
  dialect : String
  returning : Bool
  deriving DecidableEq, Repr

/-- What help is asked for: the program, or one of its commands. -/
inductive Topic where
  | program
  | compile
  | mutate
  | schema
  | help
  deriving DecidableEq, Repr

/-- A command. -/
inductive Command where
  /-- The version is printed. -/
  | version
  /-- Help is printed. -/
  | help (topic : Topic)
  /-- A query is compiled. -/
  | compile (options : CompileOptions)
  /-- An instance is written. -/
  | mutate (options : MutateOptions)
  /-- The entities of a schema are listed. -/
  | schema (path : String)
  deriving DecidableEq, Repr

/-- The command of its options; if they ask for help, the command that prints it. -/
def Reading.command? (reading : Reading) (topic : Topic) (read? : Options → Option Command) :
    Option Command :=
  match reading with
  | .given options => read? options
  | .help => some (.help topic)

/-- The dialect where none is given. -/
def defaultDialect : String := "postgres"

def schemaOption : CommandOption where
  name := "schema"
  purpose := "Entity schema file (JSON)"
  required := true

def dialectOption : CommandOption where
  name := "dialect"
  purpose := "Target dialect: \"postgres\" or \"mysql\""
  remark := "default: " ++ defaultDialect

/-- An option with a number of rows. -/
def rowsOption (name purpose : String) : CommandOption where
  name := name
  purpose := purpose
  accepts value := (readRows? value).isSome

/-- An option without a value. -/
def flagOption (name purpose : String) : CommandOption where
  name := name
  purpose := purpose
  takesValue := false

/-- The options of the command `compile`. -/
def compileOptions : List CommandOption :=
  [schemaOption,
    { name := "query", purpose := "RQL statement to compile", required := true },
    flagOption "json" "Print the SQL and alias map as JSON",
    dialectOption,
    rowsOption "start" "Offset of the first row to return",
    rowsOption "limit" "Maximum number of rows to return",
    { name := "lock", purpose := "Lock to take around the query"
      accepts := fun value => (readLock? value).isSome
      remark := "possible values: table-read, table-write, row-read, row-write" },
    { name := "lock-schema", purpose := "Schema prefix for table locks" }]

/-- The options of the command `mutate`. -/
def mutateOptions : List CommandOption :=
  [schemaOption,
    { name := "record", purpose := "Entity record file (JSON)", required := true },
    { name := "kind", purpose := "insert, update or delete", required := true
      accepts := fun value => (Mutation.ofName value).toOption.isSome },
    dialectOption,
    flagOption "returning" "Append the dialect's identifier-return clause to inserts"]

/-- The command `compile` with its options. -/
def readCompile? (arguments : List String) : Option Command := do
  (← readOptions? compileOptions {} arguments).command? .compile fun options => do
    return .compile {
      schema := ← options.required? "schema"
      query := ← options.required? "query"
      json := options.has "json"
      dialect := (← options.optional? "dialect" some).getD defaultDialect
      start? := ← options.optional? "start" readRows?
      limit? := ← options.optional? "limit" readRows?
      lock? := ← options.optional? "lock" readLock?
      lockSchema? := ← options.optional? "lock-schema" some }

/-- The command `mutate` with its options. -/
def readMutate? (arguments : List String) : Option Command := do
  (← readOptions? mutateOptions {} arguments).command? .mutate fun options => do
    return .mutate {
      schema := ← options.required? "schema"
      record := ← options.required? "record"
      mutation := ← (Mutation.ofName (← options.required? "kind")).toOption
      dialect := (← options.optional? "dialect" some).getD defaultDialect
      returning := options.has "returning" }

/-- The command `schema` with its option. -/
def readSchema? (arguments : List String) : Option Command := do
  (← readOptions? [schemaOption] {} arguments).command? .schema fun options => do
    return .schema (← options.required? "schema")

/-- What the command `help` is asked about: nothing but the name of a command, or the program. -/
def readTopic? : List String → Option Topic
  | [] => some .program
  | ["compile"] => some .compile
  | ["mutate"] => some .mutate
  | ["schema"] => some .schema
  | ["help"] => some .help
  | _ => none

/-- Whether an argument asks for the version; the short option may have others after it. -/
def asksVersion (argument : String) : Bool :=
  argument == "--version" || ['-', 'V'].isPrefixOf argument.toList

/-- The command that arguments stand for. -/
def readCommand? : List String → Option Command
  | [] => none
  | name :: arguments =>
    if asksHelp name then some (.help .program)
    else if asksVersion name then some .version
    else if name = "compile" then readCompile? arguments
    else if name = "mutate" then readMutate? arguments
    else if name = "schema" then readSchema? arguments
    else if name = "help" then (readTopic? arguments).map .help
    else none

end EntityQuery.CommandLine

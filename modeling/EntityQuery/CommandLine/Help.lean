import EntityQuery.CommandLine.Arguments

/-!
# Help

What is printed where help is asked for: what the program or one of its commands is for, how it is
used, and what it knows, in two columns.
-/

set_option autoImplicit false

namespace EntityQuery.CommandLine

/-! ## Layout -/

/-- Terms and what they mean, in two columns. -/
def twoColumns (rows : List (String × String)) : List String :=
  let width := (rows.map fun row => row.1.length).foldl max 0
  rows.map fun (term, meaning) =>
    let padding := String.ofList (List.replicate (width - term.length) ' ')
    "  " ++ term ++ padding ++ "  " ++ meaning

/-- Terms under a title, after an empty line. -/
def titled (title : String) (rows : List (String × String)) : List String :=
  "" :: (title ++ ":") :: twoColumns rows

namespace CommandOption

/-- The option as it is given; its name in capitals stands for the value. -/
def form (option : CommandOption) : String :=
  let placeholder := option.name.toUpper.map fun c => if c = '-' then '_' else c
  "--" ++ option.name ++ if option.takesValue then " <" ++ placeholder ++ ">" else ""

/-- The option and what it is for. -/
def row (option : CommandOption) : String × String :=
  let remark := if option.remark.isEmpty then "" else " [" ++ option.remark ++ "]"
  ("    " ++ option.form, option.purpose ++ remark)

end CommandOption

/-- The option that asks for help. -/
def helpRow : String × String := ("-h, --help", "Print help")

/-- How a command with options is used. -/
def usage (name : String) (options : List CommandOption) : String :=
  let required := options.filter CommandOption.required
  let others := if required.length < options.length then " [OPTIONS]" else ""
  name ++ others ++ String.join (required.map fun option => " " ++ option.form)

/-! ## Topics -/

namespace Topic

/-- What the program or a command is for. -/
def about : Topic → String
  | .program => "RQL to SQL translator"
  | .compile => "Compile an RQL statement into SQL"
  | .mutate => "Generate an INSERT, UPDATE or DELETE for an entity record"
  | .schema => "Validate a schema file and list its entities"
  | .help => "Print this message or the help of the given subcommand(s)"

/-- How the program or a command is used. -/
def usage : Topic → String
  | .program => "<COMMAND>"
  | .compile => CommandLine.usage "compile" compileOptions
  | .mutate => CommandLine.usage "mutate" mutateOptions
  | .schema => CommandLine.usage "schema" [schemaOption]
  | .help => "help [COMMAND]..."

/-- What the program or a command knows. -/
def details : Topic → List String
  | .program =>
    titled "Commands"
        [("compile", about .compile), ("mutate", about .mutate), ("schema", about .schema),
          ("help", about .help)] ++
      titled "Options" [helpRow, ("-V, --version", "Print version")]
  | .compile => titled "Options" (compileOptions.map CommandOption.row ++ [helpRow])
  | .mutate => titled "Options" (mutateOptions.map CommandOption.row ++ [helpRow])
  | .schema => titled "Options" [schemaOption.row, helpRow]
  | .help => titled "Arguments" [("[COMMAND]...", "Print help for the subcommand(s)")]

/-- The help on a topic. -/
def text (topic : Topic) : String :=
  String.join <|
    (topic.about :: "" :: ("Usage: rql " ++ topic.usage) :: topic.details).map (· ++ "\n")

end Topic

end EntityQuery.CommandLine

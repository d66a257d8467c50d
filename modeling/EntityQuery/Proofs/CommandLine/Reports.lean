import EntityQuery.CommandLine.Run
import EntityQuery.Proofs.Schema.Documents
import EntityQuery.Proofs.Tables.Introduction

/-!
# Reports of queries

The command `compile` only wraps a compiled query: a window of its rows is chosen behind it, and a
lock of rows stands behind that, or a lock of its tables before it (`Wraps`). The tables that are
locked come from the alias map, through the schema; since each table of the select presents one
entry of the map, they are the tables of the select, each as often as it is introduced
(`tablesOf_perm`). The dialect is that which is called by the given name, if there is one
(`ofName?_eq_some_iff`), and the command prints something just if the query is compiled
(`report_eq_ok_iff`).

The statements are printed on lines of their own or in a document, whose tree gives them together
with the alias map (`Reports`). The main statement is `run_compile`.
-/

set_option autoImplicit false

namespace EntityQuery

open Json (Node)

namespace Sql.Dialect

/-! ## Names -/

/-- The names of the dialects, in small letters. -/
inductive Names : Dialect → String → Prop
  | postgres : Names .postgres "postgres"
  | postgresql : Names .postgres "postgresql"
  | pg : Names .postgres "pg"
  | mysql : Names .mysql "mysql"

/-- A text stands for a dialect if it is one of its names, in letters of any case. -/
def CalledBy (dialect : Dialect) (text : String) : Prop :=
  ∃ name, Names dialect name ∧ Text.lowerAscii text = name

theorem sameIgnoringCase_iff {text name : String} (small : Text.lowerAscii name = name) :
    Text.sameIgnoringCase text name = true ↔ Text.lowerAscii text = name := by
  rw [Text.sameIgnoringCase, beq_iff_eq, ← String.ofList_inj]
  exact Eq.congr_right small

/-- **A dialect is chosen by its names.** -/
theorem ofName?_eq_some_iff {dialect : Dialect} {text : String} :
    ofName? text = some dialect ↔ dialect.CalledBy text := by
  have spelled : ∀ name ∈ ["postgres", "postgresql", "pg", "mysql"],
      (Text.sameIgnoringCase text name = true ↔ Text.lowerAscii text = name) := by
    intro name member
    apply sameIgnoringCase_iff
    revert name
    decide
  simp only [List.forall_mem_cons] at spelled
  obtain ⟨postgres, postgresql, pg, mysql, -⟩ := spelled
  simp only [ofName?, List.any_cons, List.any_nil, Bool.or_false, Bool.or_eq_true,
    postgres, postgresql, pg, mysql]
  constructor
  · intro chosen
    split at chosen
    · next same =>
      cases chosen
      rcases same with same | same | same
      · exact ⟨_, .postgres, same⟩
      · exact ⟨_, .postgresql, same⟩
      · exact ⟨_, .pg, same⟩
    · split at chosen
      · next same =>
        cases chosen
        exact ⟨_, .mysql, same⟩
      · cases chosen
  · rintro ⟨name, names, same⟩
    cases names <;> simp [same]

theorem CalledBy.unique {dialect other : Dialect} {text : String} (called : dialect.CalledBy text)
    (calledToo : other.CalledBy text) : dialect = other := by
  rw [← ofName?_eq_some_iff] at called calledToo
  exact Option.some_inj.mp (called.symm.trans calledToo)

/-! ## Locks -/

/-- The text by which a select locks its rows. -/
inductive LocksRows : Dialect → Lock → String → Prop
  | postgresRead : LocksRows .postgres .rowRead "FOR SHARE"
  | postgresWrite : LocksRows .postgres .rowWrite "FOR UPDATE"
  | mysqlRead : LocksRows .mysql .rowRead "LOCK IN SHARE MODE"
  | mysqlWrite : LocksRows .mysql .rowWrite "FOR UPDATE"

/-- The texts of a statement that locks tables: one before their names, one behind each of them, and
one behind all of them. -/
inductive TableMarks : Dialect → Lock → String → String → String → Prop
  | postgresRead : TableMarks .postgres .tableRead "LOCK TABLE " "" " IN SHARE MODE"
  | postgresWrite : TableMarks .postgres .tableWrite "LOCK TABLE " "" " IN EXCLUSIVE MODE"
  | mysqlRead : TableMarks .mysql .tableRead "LOCK TABLES " " READ" ""
  | mysqlWrite : TableMarks .mysql .tableWrite "LOCK TABLES " " WRITE" ""

/-- A statement that locks tables names each of them as often as it is listed, in any order, and
with the name of their schema and a dot before it, if one is given. -/
inductive LocksTables (dialect : Dialect) (lock : Lock) (schema? : Option String)
    (tables : List String) : String → Prop
  | naming {first each last : String} {names : List String}
      (marks : TableMarks dialect lock first each last)
      (order : names.Perm tables) :
      LocksTables dialect lock schema? tables
        (first ++
          String.intercalate ","
            (names.map fun table => schema?.elim "" (· ++ ".") ++ table ++ each) ++ last)

variable {dialect : Dialect} {schema? : Option String} {tables names : List String}

theorem qualified_eq (schema? : Option String) (table : String) :
    qualified schema? table = schema?.elim "" (· ++ ".") ++ table := by
  cases schema? with
  | none => exact (String.empty_append).symm
  | some schema => rfl

theorem tableList_eq (schema? : Option String) (each : String) (tables : List String) :
    tableList schema? each tables =
      String.intercalate ","
        (tables.map fun table => schema?.elim "" (· ++ ".") ++ table ++ each) := by
  simp only [tableList, qualified_eq]

/-- A lock is of rows, or of tables. -/
theorem lock_cases (dialect : Dialect) (lock : Lock) :
    (∃ mark, LocksRows dialect lock mark) ∨
      ∃ first each last, TableMarks dialect lock first each last := by
  cases dialect <;> cases lock
  · exact .inr ⟨_, _, _, .postgresRead⟩
  · exact .inr ⟨_, _, _, .postgresWrite⟩
  · exact .inl ⟨_, .postgresRead⟩
  · exact .inl ⟨_, .postgresWrite⟩
  · exact .inr ⟨_, _, _, .mysqlRead⟩
  · exact .inr ⟨_, _, _, .mysqlWrite⟩
  · exact .inl ⟨_, .mysqlRead⟩
  · exact .inl ⟨_, .mysqlWrite⟩

/-- What a dialect writes for a lock of tables locks them. -/
theorem TableMarks.locks {lock : Lock} {first each last : String}
    (marks : TableMarks dialect lock first each last) (order : names.Perm tables) :
    LocksTables dialect lock schema? tables (dialect.lock lock names schema?) := by
  have written : dialect.lock lock names schema? = first ++
      String.intercalate "," (names.map fun table => schema?.elim "" (· ++ ".") ++ table ++ each) ++
        last := by
    cases marks <;> simp only [Dialect.lock, tableList_eq, String.append_empty]
  rw [written]
  exact .naming marks order

end Sql.Dialect

namespace CommandLine

open Sql (Dialect Lock TableRef)

variable {schema : Schema} {dialect : Dialect} {options : CompileOptions} {compiled : Compiled}
  {statements : List String} {query : String}

/-- Statements wrap a compiled query: the query with a window of its rows, perhaps with a lock of
rows behind it or after a lock of its tables. -/
inductive Wraps (dialect : Dialect) (options : CompileOptions) (compiled : Compiled) :
    List String → Prop
  | unlocked (unlocked : options.lock? = none) :
      Wraps dialect options compiled [compiled.sql ++ dialect.window options.start? options.limit?]
  | rows {lock : Lock} {mark : String} (given : options.lock? = some lock)
      (locks : dialect.LocksRows lock mark) :
      Wraps dialect options compiled
        [compiled.sql ++ dialect.window options.start? options.limit? ++ " " ++ mark]
  | tables {lock : Lock} {statement : String} (given : options.lock? = some lock)
      (locks : dialect.LocksTables lock options.lockSchema?
        (compiled.select.tables.map TableRef.table) statement) :
      Wraps dialect options compiled
        [statement, compiled.sql ++ dialect.window options.start? options.limit?]

/-! ## Locked tables -/

/-- Tables that present entries are those of the entries. -/
theorem tablesOf_of_presents {references : List TableRef} {entries : List (String × Occurrence)}
    (presents : List.Forall₂ schema.Presents references entries) :
    tablesOf schema entries = references.map TableRef.table := by
  induction presents with
  | nil => rfl
  | @cons reference entry references entries one _ ih =>
      obtain ⟨-, entity, registered, table⟩ := one
      simp only [tablesOf] at ih ⊢
      simp only [List.filterMap_cons, registered, Option.map_some, List.map_cons, table, ih]

/-- **The tables of the alias map are those of the select**, each as often as it is introduced. No
entry of the map is without a table, since each is presented by one of the select. -/
theorem tablesOf_perm (compiles : schema.compile query = .ok compiled) :
    (tablesOf schema (sortedByAlias compiled.aliases)).Perm
      (compiled.select.tables.map TableRef.table) := by
  obtain ⟨aliases, -, same, written, joined⟩ := (Schema.queryRun_of_ok compiles).presents
  have sorted : (sortedByAlias compiled.aliases).Perm
      (aliases.writtenEntries ++ aliases.hopEntries) :=
    (List.mergeSort_perm _ _).trans (same ▸ aliases.writtenEntries_append_hopEntries_perm.symm)
  have listed : (tablesOf schema (sortedByAlias compiled.aliases)).Perm
      (tablesOf schema (aliases.writtenEntries ++ aliases.hopEntries)) :=
    sorted.filterMap _
  have tables : tablesOf schema (aliases.writtenEntries ++ aliases.hopEntries) =
      (compiled.select.writtenTables ++ compiled.select.joinedTables).map TableRef.table := by
    rw [List.map_append, ← tablesOf_of_presents written, ← tablesOf_of_presents joined]
    exact List.filterMap_append
  rw [tables] at listed
  exact listed.trans (compiled.select.tables_perm.map TableRef.table).symm

/-! ## Statements -/

/-- **The statements of a compiled query wrap it.** -/
theorem wraps_statements (compiles : schema.compile query = .ok compiled) :
    Wraps dialect options compiled (CommandLine.statements schema dialect options compiled) := by
  unfold CommandLine.statements
  cases given : options.lock? with
  | none => exact .unlocked given
  | some lock =>
      obtain ⟨mark, locks⟩ | ⟨first, each, last, marks⟩ := dialect.lock_cases lock
      · cases locks
        · exact .rows given .postgresRead
        · exact .rows given .postgresWrite
        · exact .rows given .mysqlRead
        · exact .rows given .mysqlWrite
      · have locks : dialect.LocksTables lock options.lockSchema? _ _ :=
          marks.locks (tablesOf_perm compiles)
        cases marks <;> exact .tables given locks

/-- The compiled query is at the front of the last statement. -/
theorem Wraps.begins (wraps : Wraps dialect options compiled statements) :
    ∃ earlier suffix, statements = earlier ++ [compiled.sql ++ suffix] := by
  cases wraps with
  | unlocked => exact ⟨[], _, rfl⟩
  | rows => exact ⟨[], _, by rw [String.append_assoc, String.append_assoc]; rfl⟩
  | tables => exact ⟨[_], _, rfl⟩

theorem append_ne_empty {first rest : String} (nonempty : first ≠ "") : first ++ rest ≠ "" := by
  simp [nonempty]

theorem sql_ne_empty (compiled : Compiled) : compiled.sql ≠ "" := by
  unfold Compiled.sql Sql.Select.render
  iterate 5
    refine append_ne_empty ?_
  decide

theorem Wraps.nonempty (wraps : Wraps dialect options compiled statements) :
    ∀ statement ∈ statements, statement ≠ "" := by
  have query : ∀ rest, compiled.sql ++ rest ≠ "" := fun _ => append_ne_empty (sql_ne_empty compiled)
  cases wraps with
  | unlocked => exact List.forall_mem_singleton.mpr (query _)
  | rows => exact List.forall_mem_singleton.mpr (append_ne_empty (append_ne_empty (query _)))
  | tables given locks =>
      refine List.forall_mem_cons.mpr ⟨?_, List.forall_mem_singleton.mpr (query _)⟩
      cases locks with
      | naming marks => exact append_ne_empty (append_ne_empty (by cases marks <;> decide))

/-- Statements are printed on lines of their own, and none is left out. -/
theorem Wraps.lines_eq (wraps : Wraps dialect options compiled statements) :
    lines statements = String.join (statements.map (· ++ "\n")) := by
  have all : statements.filter (fun text => !text.isEmpty) = statements := by
    refine List.filter_eq_self.mpr fun statement member => ?_
    simpa using wraps.nonempty statement member
  rw [lines, all]

/-! ## Reports -/

/-- The tree of a report gives the name of the dialect, the statements, and the occurrences under
their aliases, which ascend. -/
inductive Reports (dialect : Dialect) (statements : List String)
    (aliases : List (String × Occurrence)) : Node → Prop
  | record {entries : List (String × Occurrence)} (order : entries.Perm aliases)
      (ascending : entries.Pairwise fun earlier later => earlier.1 ≤ later.1) :
      Reports dialect statements aliases
        (.record
          [("dialect", .string (some dialect.name)),
            ("statements", .array (statements.map fun statement => .string (some statement)) true),
            ("aliases", .record (entries.map fun entry => (entry.1, entry.2.toJson.node)))])

theorem exact_toJson_occurrence (occurrence : Occurrence) : occurrence.toJson.Exact := by
  unfold Occurrence.toJson
  cases occurrence.source? with
  | none => exact ⟨trivial, trivial⟩
  | some source => exact ⟨trivial, trivial, trivial, trivial⟩

theorem Report.exact_toJson (report : Report) : report.toJson.Exact := by
  refine ⟨trivial, ?_, ?_, trivial⟩
  · exact Json.exactItems_iff.mpr (List.forall_mem_map.mpr fun _ _ => trivial)
  · exact Json.exactMembers_iff.mpr
      (List.forall_mem_map.mpr fun entry _ => exact_toJson_occurrence entry.2)

/-- **What is printed of a report is a document that reports it.** -/
theorem reports_toJson (dialect : Dialect) (statements : List String)
    (aliases : List (String × Occurrence)) :
    Reports dialect statements aliases
      (Report.toJson ⟨dialect, statements, sortedByAlias aliases⟩).node := by
  rw [Report.toJson, Json.node_object]
  have items : (Json.array (statements.map .string)).node =
      .array (statements.map fun statement => .string (some statement)) true := by
    rw [Json.node, Json.itemNodes_eq_map, List.map_map]
    rfl
  have members : (aliasesToJson (sortedByAlias aliases)).node =
      .record ((sortedByAlias aliases).map fun entry => (entry.1, entry.2.toJson.node)) := by
    rw [aliasesToJson, Json.node_object, List.map_map]
    rfl
  simp only [List.map_cons, List.map_nil, items, members]
  exact .record (List.mergeSort_perm _ _) (pairwise_le_sortedByAlias aliases)

/-! ## Commands -/

theorem chooseDialect_eq_ok_iff {name : String} :
    chooseDialect name = .ok dialect ↔ dialect.CalledBy name := by
  rw [← Sql.Dialect.ofName?_eq_some_iff, chooseDialect]
  cases Sql.Dialect.ofName? name with
  | none => simp
  | some other => simp

/-- The options lead to a compiled query: the schema of their file is loaded, they name a dialect,
and their query is compiled over the schema. -/
structure Prepares (read? : String → Option String) (options : CompileOptions) (schema : Schema)
    (dialect : Dialect) (compiled : Compiled) : Prop where
  loaded : loadSchema read? options.schema = .ok schema
  chosen : dialect.CalledBy options.dialect
  compiles : schema.compile options.query = .ok compiled

variable {read? : String → Option String} {arguments : List String} {shown : Report}

/-- The report that is made of a compiled query. -/
theorem report_eq_ok_iff :
    report read? options = .ok shown ↔
      ∃ schema dialect compiled, Prepares read? options schema dialect compiled ∧
      shown = ⟨dialect, CommandLine.statements schema dialect options compiled,
        sortedByAlias compiled.aliases⟩ := by
  constructor
  · intro reported
    obtain ⟨schema, loaded, rest⟩ := ok_of_bind reported
    obtain ⟨dialect, chosen, rest⟩ := ok_of_bind rest
    obtain ⟨compiled, mapped, ⟨⟩⟩ := ok_of_bind rest
    have named := chooseDialect_eq_ok_iff.mp chosen
    exact ⟨schema, dialect, compiled, ⟨loaded, named, ok_of_mapError mapped⟩, rfl⟩
  · rintro ⟨schema, dialect, compiled, ⟨loaded, chosen, compiles⟩, rfl⟩
    have mapped : (schema.compile options.query).mapError Failure.mapping = .ok compiled := by
      rw [compiles]
      rfl
    exact bind_ok loaded (bind_ok (chooseDialect_eq_ok_iff.mpr chosen) (bind_ok mapped rfl))

/-- The report does not depend on how it is printed. -/
theorem run_of_report (reported : report read? options = .ok shown) (json : Bool) :
    (Command.compile { options with json := json }).run read? = .ok (shown.text json) := by
  change (fun report : Report => report.text json) <$> report read? options = _
  rw [reported]
  rfl

/-- **The command line wraps what a query is compiled to.** It prints something for a query if and
only if the schema is loaded, the dialect is known, and the query is compiled. The statements then
wrap the compiled query, which is at the front of the last one, and either way of printing gives the
same ones: each on a line of its own, or in a document that reports them, with the alias map of the
compiled query. -/
theorem run_compile (command : readCommand? arguments = some (.compile options)) :
    ((∃ text, run read? arguments = .ok text) ↔
      ∃ schema dialect compiled, Prepares read? options schema dialect compiled) ∧
    ∀ text, run read? arguments = .ok text →
      ∃ schema dialect compiled statements document tree,
        Prepares read? options schema dialect compiled ∧ Wraps dialect options compiled statements ∧
        (∃ earlier suffix, statements = earlier ++ [compiled.sql ++ suffix]) ∧
        (Command.compile { options with json := false }).run read? =
          .ok (String.join (statements.map (· ++ "\n"))) ∧
        (Command.compile { options with json := true }).run read? = .ok document ∧
        Node.ofText document = (tree, true) ∧ Reports dialect statements compiled.aliases tree ∧
        text = if options.json then document else String.join (statements.map (· ++ "\n")) := by
  have runs : run read? arguments = (Command.compile options).run read? := by rw [run, command]
  rw [runs]
  refine ⟨⟨?_, ?_⟩, fun text prints => ?_⟩
  · rintro ⟨text, prints⟩
    obtain ⟨shown, reported, -⟩ := ok_of_map prints
    obtain ⟨schema, dialect, compiled, prepares, -⟩ := report_eq_ok_iff.mp reported
    exact ⟨schema, dialect, compiled, prepares⟩
  · rintro ⟨schema, dialect, compiled, prepares⟩
    exact ⟨_, run_of_report (report_eq_ok_iff.mpr ⟨schema, dialect, compiled, prepares, rfl⟩)
      options.json⟩
  · obtain ⟨shown, reported, rfl⟩ := ok_of_map prints
    obtain ⟨schema, dialect, compiled, prepares, same⟩ := report_eq_ok_iff.mp reported
    have wraps : Wraps dialect options compiled shown.statements :=
      same ▸ wraps_statements prepares.compiles
    have onLines : shown.text false = String.join (shown.statements.map (· ++ "\n")) :=
      wraps.lines_eq
    have newLine : ∀ c ∈ "\n".toList, Json.isSeparator c = true := List.forall_mem_singleton.mpr rfl
    have reports : Reports dialect shown.statements compiled.aliases shown.toJson.node := by
      rw [same]
      exact reports_toJson dialect _ compiled.aliases
    refine ⟨schema, dialect, compiled, shown.statements, shown.text true, shown.toJson.node,
      prepares, wraps, wraps.begins, onLines ▸ run_of_report reported false,
      run_of_report reported true,
      Json.ofText_pretty (Report.exact_toJson shown) newLine, reports, ?_⟩
    cases options.json with
    | false => exact onLines
    | true => rfl

/-- Files of which one holds the sample schema. -/
def sampleFiles (path : String) : Option String :=
  if path = "schema.json" then some (Json.array (Sample.schema.entities.map Entity.toJson)).compact
  else none

/-- The arguments that compile a query and lock its tables. -/
def lockArguments : List String :=
  ["compile", "--schema", "schema.json", "--query", "select s.area.name from Shop s, Tag g",
    "--lock=table-read", "--lock-schema", "db", "--limit", "5"]

def lockOptions : CompileOptions where
  schema := "schema.json"
  query := "select s.area.name from Shop s, Tag g"
  json := false
  dialect := "postgres"
  start? := none
  limit? := some 5
  lock? := some .tableRead
  lockSchema? := some "db"

/-- A table of the table clause, one of a hop and one of the rest are locked before the query. -/
theorem run_compile_lock :
    readCommand? lockArguments = some (.compile lockOptions) ∧
      ∃ text compiled statements, run sampleFiles lockArguments = .ok text ∧
        Sample.schema.compile lockOptions.query = .ok compiled ∧
        compiled.sql =
          "select t2.name from t_shop t0 left join t_area t2 on t0.area_id = t2.id , t_tag t1" ∧
        compiled.select.tables.map TableRef.table = ["t_shop", "t_area", "t_tag"] ∧
        Wraps .postgres lockOptions compiled statements ∧
        text = String.join (statements.map (· ++ "\n")) := by
  have command : readCommand? lockArguments = some (.compile lockOptions) := by decide +kernel
  have loaded : loadSchema sampleFiles lockOptions.schema = .ok Sample.schema := by
    have found : sampleFiles lockOptions.schema =
        some (Json.array (Sample.schema.entities.map Entity.toJson)).compact := if_pos rfl
    rw [loadSchema, found]
    exact congrArg (Except.mapError Failure.schema) (Schema.ofDocument_entities Sample.schema)
  have shown : (Sample.schema.compile lockOptions.query).toOption.map
      (fun compiled => (compiled.sql, compiled.select.tables.map TableRef.table)) =
        some ("select t2.name from t_shop t0 left join t_area t2 on t0.area_id = t2.id , t_tag t1",
          ["t_shop", "t_area", "t_tag"]) := by
    decide +kernel
  obtain ⟨compiled, compiles, same⟩ := exists_ok_of_shown shown
  obtain ⟨sql, tables⟩ := Prod.mk.inj same
  have chosen : Dialect.postgres.CalledBy lockOptions.dialect := ⟨_, .postgres, by decide +kernel⟩
  obtain ⟨answers, printed⟩ := run_compile command
  obtain ⟨text, prints⟩ := answers.mpr ⟨_, _, _, loaded, chosen, compiles⟩
  obtain ⟨schema, dialect, other, statements, _, _, prepares, wraps, -, -, -, -, -, shownText⟩ :=
    printed text prints
  cases loaded.symm.trans prepares.loaded
  cases chosen.unique prepares.chosen
  cases compiles.symm.trans prepares.compiles
  exact ⟨command, text, compiled, statements, prints, compiles, sql, tables, wraps, shownText⟩

end CommandLine

end EntityQuery

import EntityQuery.Mapping.Query
import EntityQuery.Proofs.LooseKeys.Schema
import EntityQuery.Proofs.Resolution.Expansion
import EntityQuery.Proofs.Tables.Scan

/-!
# Loose keys in queries

A query asks a schema for entities, for their columns by property, and for the hops along columns.
The plain form of a schema answers with the plain forms of the same entities (`entity_plain`), with
columns of the same names, and with the same hops. So every path ends in the plain form as it does
in the schema (`follow_plain`), every entity selected in full shows the same columns
(`expandColumns_plain`), and every query has the same outcome (`compile_looseKeys_ordinary`).
-/

set_option autoImplicit false

namespace EntityQuery

open Registry

/-- A hop between plain forms is that between the entities. -/
theorem Aliases.join_plain {owner target : Entity} {column : Column} {relation : Relation}
    (leads : owner.hop? column = some relation) (aliases : Aliases) (ownerAlias : String) :
    aliases.join owner.plain ownerAlias (owner.plainColumn column) target.plain =
      aliases.join owner ownerAlias column target := by
  rw [Entity.plainColumn_of_hop? leads]
  rfl

/-- The same destination, with the plain form of its entity. -/
def Destination.plain : Destination → Destination
  | .column reference => .column reference
  | .entity ending alias_ lastHop? => .entity ending.plain alias_ lastHop?

namespace Schema

variable {schema : Schema}

/-! ## Paths -/

theorem entity_plain_bind {α : Type} (name : String)
    (next : Entity → Except MappingError α) :
    (schema.plain.entity name >>= next) = schema.entity name >>= fun entity =>
      next entity.plain := by
  rw [entity_plain]
  cases schema.entity name <;> rfl

/-- **Properties that are followed in the plain form lead to the same end**, and take the same hops.
-/
theorem follow_plain (entity : Entity) (alias_ : String) (lastHop? : Option Sql.ColumnRef)
    (segments : List String) (aliases : Aliases) :
    schema.plain.follow entity.plain alias_ lastHop? segments aliases =
      (schema.follow entity alias_ lastHop? segments aliases).map fun result =>
        (result.1.plain, result.2) := by
  induction segments generalizing entity alias_ lastHop? aliases with
  | nil => rfl
  | cons segment rest ih =>
      rw [follow, follow, Entity.column?_plain]
      cases entity.column? segment with
      | none => rfl
      | some column =>
          simp only [Option.map_some, Entity.hop?_plain, Entity.plainColumn_columnName]
          cases leads : entity.hop? column with
          | none => cases rest <;> rfl
          | some relation =>
              simp only [entity_plain_bind, Aliases.join_plain leads, ih]
              cases schema.entity relation.entity <;> rfl

theorem walk_plain (path : Path) (aliases : Aliases) :
    schema.plain.walk path aliases =
      (schema.walk path aliases).map fun result => (result.1.plain, result.2) := by
  unfold walk
  split
  · rfl
  · rw [entity_plain_bind]
    simp only [follow_plain]
    cases schema.entity _ <;> rfl

theorem columnOf_plain (entityEnd : EntityEnd) (destination : Destination) :
    columnOf entityEnd destination.plain = columnOf entityEnd destination := by
  cases destination with
  | column reference => rfl
  | entity entity alias_ lastHop? =>
      simp only [Destination.plain, columnOf, Entity.identifierColumn?_plain, Entity.plain_name]
      cases entity.identifierColumn? with
      | none => rfl
      | some column => simp only [Option.map_some, Entity.plainColumn_columnName]

theorem field_plain : schema.plain.field = schema.field := by
  funext entityEnd text aliases
  rw [field, field, walk_plain]
  cases schema.walk (Path.ofText text) aliases with
  | error problem => rfl
  | ok result =>
      exact congrArg
        (fun found => found >>= fun reference => pure (Sql.Expr.column reference, result.2))
        (columnOf_plain entityEnd result.1)

theorem token_plain : schema.plain.token = schema.token := by
  funext entityEnd token aliases
  rw [Registry.token, Registry.token, field_plain]

theorem tokens_plain : schema.plain.tokens = schema.tokens := by
  funext entityEnd tokens aliases
  induction tokens generalizing aliases with
  | nil => rfl
  | cons first rest ih => simp only [tokens, token_plain, ih]

/-! ## Select clauses -/

/-- An eager relation to an entity that is not registered cannot be opened. -/
theorem expandColumns_unknown {visiting : List String} {entity : Entity} {alias_ : String}
    {column : Column} {rest : List Column} {aliases : Aliases} {relation : Relation}
    (leads : entity.hop? column = some relation) (eager : relation.eager = true)
    (fresh : relation.entity ∉ visiting) (missing : schema.lookup relation.entity = none) :
    schema.expandColumns visiting entity alias_ (column :: rest) aliases =
      .error (.unknownEntity relation.entity) := by
  rw [expandColumns, leads]
  simp only [eager, Bool.true_eq_false, if_false, dif_neg fresh]
  split
  · rfl
  · next found =>
    rw [missing] at found
    cases found

/-- **The plain form of an entity shows the same columns**: a loose key is shown in both. -/
theorem expandColumns_plain (visiting : List String) (entity : Entity) (alias_ : String)
    (columns : List Column) (aliases : Aliases) :
    schema.plain.expandColumns visiting entity.plain alias_
      (columns.map entity.plainColumn) aliases =
      schema.expandColumns visiting entity alias_ columns aliases := by
  fun_induction Schema.expandColumns schema visiting entity alias_ columns aliases with
  | case1 visiting entity alias_ aliases =>
      rw [List.map_nil, expandColumns]
  | case2 visiting entity alias_ aliases column rest ordinary ih =>
      rw [List.map_cons, expandColumns, Entity.hop?_plain, ordinary]
      simp only [ih, namedColumn, Entity.plainColumn_columnName, Entity.plainColumn_property]
  | case3 visiting entity alias_ aliases column rest relation leads isLazy ih =>
      rw [List.map_cons, expandColumns, Entity.hop?_plain, leads]
      simp only [isLazy, if_true]
      exact ih
  | case4 visiting entity alias_ aliases column rest relation leads eager visited ih =>
      rw [List.map_cons, expandColumns, Entity.hop?_plain, leads]
      simp only [eager, dif_pos visited]
      exact ih
  | case5 visiting entity alias_ aliases column rest relation leads eager fresh missing =>
      have leadsToo := (entity.hop?_plain column).trans leads
      have missingToo : schema.plain.lookup relation.entity = none := by
        rw [lookup_plain, missing]
        rfl
      exact expandColumns_unknown leadsToo (by simpa using eager) fresh missingToo
  | case6 visiting entity alias_ aliases column rest relation leads eager fresh target found _
      targetAlias joined same ihInside ihOthers =>
      have leadsToo := (entity.hop?_plain column).trans leads
      have foundToo : schema.plain.lookup relation.entity = some target.plain := by
        rw [lookup_plain, found]
        rfl
      rw [List.map_cons, expandColumns_opened leadsToo (by simpa using eager) fresh foundToo,
        Aliases.join_plain leads, same, Entity.plain_columns, ihInside]
      simp only [ihOthers]

theorem expand_plain (entity : Entity) (alias_ : String) (aliases : Aliases) :
    schema.plain.expand entity.plain alias_ aliases = schema.expand entity alias_ aliases :=
  expandColumns_plain [entity.name] entity alias_ entity.columns aliases

theorem argument_plain : schema.plain.argument = schema.argument := by
  funext text aliases
  rw [argument, argument, field_plain]

theorem arguments_plain : schema.plain.arguments = schema.arguments := by
  funext texts aliases
  induction texts generalizing aliases with
  | nil => rfl
  | cons text rest ih => simp only [arguments, argument_plain, ih]

theorem selectItem_plain : schema.plain.selectItem = schema.selectItem := by
  funext item aliases
  unfold selectItem
  split
  · rfl
  · rw [arguments_plain]
  · rw [walk_plain]
    cases schema.walk _ aliases with
    | error problem => rfl
    | ok result =>
        obtain ⟨destination, later⟩ := result
        cases destination with
        | column reference => rfl
        | entity entity alias_ lastHop? => exact expand_plain entity alias_ later

theorem selectItems_plain : schema.plain.selectItems = schema.selectItems := by
  funext items aliases
  induction items generalizing aliases with
  | nil => rfl
  | cons item rest ih => simp only [selectItems, selectItem_plain, ih]

theorem selectClause_plain : schema.plain.selectClause = schema.selectClause := by
  funext text aliases
  unfold selectClause
  rw [selectItems_plain]

/-! ## Table clauses and conditions -/

/-- **The parts of a table clause are the same**, whatever is expected first: of an entity it asks
the name and the table. -/
theorem tableItems_plain (state : TableState) (tokens : List Query.Token) (aliases : Aliases) :
    schema.plain.tableItems state tokens aliases = schema.tableItems state tokens aliases := by
  fun_induction Registry.tableItems schema state tokens aliases with
  | case1 state aliases => rw [tableItems]
  | case2 state aliases token rest separator ih =>
      rw [TableScan.tableItems_separator separator, ih]
      rfl
  | case3 state aliases token rest notSeparator on ih =>
      rw [TableScan.tableItems_on on, ih]
      rfl
  | case4 aliases token rest notSeparator notOn _ ih =>
      rw [TableScan.tableItems_entity (Query.Token.plain_of_tests notSeparator notOn),
        entity_plain_bind]
      simp only [Entity.plain_name, Entity.plain_table, ih]
      rfl
  | case5 aliases token rest notSeparator notOn incomplete =>
      rw [TableScan.tableItems_incomplete
        (Query.Token.plain_of_tests notSeparator notOn) incomplete]
  | case6 aliases token rest notSeparator notOn right after complete _ ih =>
      rw [TableScan.tableItems_condition (Query.Token.plain_of_tests notSeparator notOn) complete,
        field_plain]
      simp only [ih]
      rfl
  | case7 aliases token rest notSeparator notOn ih =>
      rw [TableScan.tableItems_any (Query.Token.plain_of_tests notSeparator notOn), token_plain]
      simp only [ih]
      rfl

theorem tableClause_plain : schema.plain.tableClause = schema.tableClause := by
  funext text aliases
  simp only [tableClause, tableItems_plain]

theorem condition_plain : schema.plain.condition = schema.condition := by
  funext marks entityEnd text? aliases
  unfold condition
  rw [tokens_plain]

/-! ## Queries -/

theorem compile_plain (query : String) : schema.plain.compile query = schema.compile query := by
  simp only [compile, compileClauses, tableClause_plain, selectClause_plain, condition_plain]

/-- **A foreign key without a relation is an ordinary column for queries**: the entities with their
loose keys as ordinary columns can be registered, and every query has the same outcome over them. -/
theorem compile_looseKeys_ordinary (schema : Schema) :
    Schema.empty.registerAll (schema.entities.map Entity.plain) = .ok schema.plain ∧
      ∀ query, schema.plain.compile query = schema.compile query :=
  ⟨registerAll_entities schema.plain, fun _ => compile_plain _⟩

end Schema

end EntityQuery

import EntityQuery.Mapping.Mutation
import EntityQuery.Mapping.Query
import EntityQuery.Proofs.Resolution.Expansion
import EntityQuery.Proofs.Sample
import EntityQuery.Proofs.Tables.Scan
import Mathlib.Data.List.Nodup

/-!
# Larger schemas

When further entities are registered, the old ones keep their names (`Within.lookup`). A computation
over a schema asks for entities by name only, and fails at once where a name is unknown. So its
outcome stays in a larger schema, unless it is that an entity is unknown (`Stays`): this holds of
every part of a query and of the query as a whole (`compile_stays`), and of every mutation
(`mutate_stays`).

The main statement is `answers_stay`: whatever a schema answers other than that an entity is
unknown, every larger schema answers too.
-/

set_option autoImplicit false

namespace EntityQuery

open Registry

variable {α β : Type}

/-- The outcome over a schema is that an entity is unknown, or the same over a larger schema. -/
def Stays (outcome larger : Except MappingError α) : Prop :=
  (∃ name, outcome = .error (.unknownEntity name)) ∨ larger = outcome

namespace Stays

theorem refl (outcome : Except MappingError α) : Stays outcome outcome :=
  .inr rfl

/-- Steps one after another stay if each of them does. -/
theorem bind {first larger : Except MappingError α} {next nextLarger : α → Except MappingError β}
    (one : Stays first larger) (others : ∀ value, Stays (next value) (nextLarger value)) :
    Stays (first >>= next) (larger >>= nextLarger) := by
  rcases one with ⟨name, unknown⟩ | same
  · exact .inl ⟨name, bind_of_error unknown⟩
  · rw [same]
    cases first with
    | error problem => exact refl _
    | ok value => exact others value

/-- What is done with the result makes no difference. -/
theorem map {first larger : Except MappingError α} (one : Stays first larger)
    (next : α → Except MappingError β) : Stays (first >>= next) (larger >>= next) :=
  one.bind fun value => refl (next value)

/-- An outcome that is not about an unknown entity is the one over the larger schema. -/
theorem eq_of_known {outcome larger : Except MappingError α} (stays : Stays outcome larger)
    (known : ∀ name, outcome ≠ .error (.unknownEntity name)) : larger = outcome :=
  stays.resolve_left fun ⟨name, unknown⟩ => known name unknown

end Stays

namespace Schema

/-- Every entity of the schema is in the other one, unchanged. -/
def Within (schema larger : Schema) : Prop :=
  ∀ entity ∈ schema.entities, entity ∈ larger.entities

/-- A schema is within those that come from it by registering entities. -/
theorem within_of_register {schema later : Schema} {entity : Entity}
    (registered : schema.register entity = .ok later) : schema.Within later := by
  intro old member
  rw [(register_eq_ok_iff.mp registered).2.2]
  exact List.mem_append_left _ member

variable {schema larger : Schema}

/-- What a name stands for in a schema, it stands for in a larger one: no other entity has it there.
-/
theorem Within.lookup (within : schema.Within larger) {name : String} {entity : Entity}
    (found : schema.lookup name = some entity) : larger.lookup name = some entity := by
  rw [← schema.name_of_lookup found]
  exact lookup_of_mem (within entity (mem_of_lookup found))

/-! ## Paths -/

theorem entity_stays (within : schema.Within larger) (name : String) :
    Stays (schema.entity name) (larger.entity name) := by
  unfold Registry.entity
  cases found : schema.lookup name with
  | none => exact .inl ⟨name, rfl⟩
  | some entity =>
      rw [within.lookup found]
      exact .refl _

theorem follow_stays (within : schema.Within larger) (entity : Entity) (alias_ : String)
    (lastHop? : Option Sql.ColumnRef) (segments : List String) (aliases : Aliases) :
    Stays (schema.follow entity alias_ lastHop? segments aliases)
      (larger.follow entity alias_ lastHop? segments aliases) := by
  induction segments generalizing entity alias_ lastHop? aliases with
  | nil => exact .refl _
  | cons segment rest ih =>
      simp only [follow]
      split
      · exact .refl _
      · split
        · apply Stays.bind (entity_stays within _)
          intro target
          exact ih _ _ _ _
        · exact .refl _

theorem walk_stays (within : schema.Within larger) (path : Path) (aliases : Aliases) :
    Stays (schema.walk path aliases) (larger.walk path aliases) := by
  unfold walk
  split
  · exact .refl _
  · apply Stays.bind (entity_stays within _)
    intro entity
    exact follow_stays within entity _ _ _ _

theorem field_stays (within : schema.Within larger) (entityEnd : EntityEnd) (text : String)
    (aliases : Aliases) :
    Stays (schema.field entityEnd text aliases) (larger.field entityEnd text aliases) :=
  (walk_stays within _ aliases).map _

theorem token_stays (within : schema.Within larger) (entityEnd : EntityEnd) (token : Query.Token)
    (aliases : Aliases) :
    Stays (schema.token entityEnd token aliases) (larger.token entityEnd token aliases) := by
  unfold Registry.token
  split
  · exact field_stays within entityEnd _ aliases
  · exact .refl _

theorem tokens_stay (within : schema.Within larger) (entityEnd : EntityEnd)
    (tokens : List Query.Token) (aliases : Aliases) :
    Stays (schema.tokens entityEnd tokens aliases) (larger.tokens entityEnd tokens aliases) := by
  induction tokens generalizing aliases with
  | nil => exact .refl _
  | cons first rest ih =>
      apply Stays.bind (token_stays within entityEnd first aliases)
      intro one
      exact (ih one.2).map _

/-! ## Select clauses -/

/-- **An expansion stays**: a relation back to an entity that is being expanded is left out by its
name, and the target of any other is asked for. -/
theorem expandColumns_stays (within : schema.Within larger) (visiting : List String)
    (entity : Entity) (alias_ : String) (columns : List Column) (aliases : Aliases) :
    Stays (schema.expandColumns visiting entity alias_ columns aliases)
      (larger.expandColumns visiting entity alias_ columns aliases) := by
  fun_induction Schema.expandColumns schema visiting entity alias_ columns aliases with
  | case1 visiting entity alias_ aliases =>
      rw [expandColumns]
      exact .refl _
  | case2 visiting entity alias_ aliases column rest ordinary ih =>
      rw [expandColumns, ordinary]
      exact ih.map _
  | case3 visiting entity alias_ aliases column rest relation leads isLazy ih =>
      rw [expandColumns, leads]
      simp only [isLazy, if_true]
      exact ih
  | case4 visiting entity alias_ aliases column rest relation leads eager visited ih =>
      rw [expandColumns, leads]
      simp only [eager, dif_pos visited]
      exact ih
  | case5 visiting entity alias_ aliases column rest relation leads eager fresh missing =>
      exact .inl ⟨_, rfl⟩
  | case6 visiting entity alias_ aliases column rest relation leads eager fresh target found _
      targetAlias joined same ihInside ihOthers =>
      rw [expandColumns_opened leads (by simpa using eager) fresh (within.lookup found), same]
      apply Stays.bind ihInside
      intro inner
      exact (ihOthers inner.2).map _

theorem argument_stays (within : schema.Within larger) (text : String) (aliases : Aliases) :
    Stays (schema.argument text aliases) (larger.argument text aliases) := by
  unfold argument
  split
  · exact field_stays within .identifier text aliases
  · exact .refl _

theorem arguments_stay (within : schema.Within larger) (texts : List String) (aliases : Aliases) :
    Stays (schema.arguments texts aliases) (larger.arguments texts aliases) := by
  induction texts generalizing aliases with
  | nil => exact .refl _
  | cons text rest ih =>
      apply Stays.bind (argument_stays within text aliases)
      intro one
      exact (ih one.2).map _

theorem selectItem_stays (within : schema.Within larger) (item : String) (aliases : Aliases) :
    Stays (schema.selectItem item aliases) (larger.selectItem item aliases) := by
  unfold selectItem
  split
  · exact .refl _
  · exact (arguments_stay within _ aliases).map _
  · apply Stays.bind (walk_stays within _ aliases)
    rintro ⟨destination, later⟩
    cases destination with
    | column reference => exact .refl _
    | entity entity alias_ lastHop? => exact expandColumns_stays within _ entity alias_ _ later

theorem selectItems_stay (within : schema.Within larger) (items : List String) (aliases : Aliases) :
    Stays (schema.selectItems items aliases) (larger.selectItems items aliases) := by
  induction items generalizing aliases with
  | nil => exact .refl _
  | cons item rest ih =>
      apply Stays.bind (selectItem_stays within item aliases)
      intro first
      exact (ih first.2).map _

theorem selectClause_stays (within : schema.Within larger) (text : String) (aliases : Aliases) :
    Stays (schema.selectClause text aliases) (larger.selectClause text aliases) := by
  apply Stays.bind (.refl _)
  intro items
  exact (selectItems_stay within items aliases).map _

/-! ## Table clauses and conditions -/

/-- **The parts of a table clause stay**, whatever is expected first. -/
theorem tableItems_stay (within : schema.Within larger) (state : TableState)
    (tokens : List Query.Token) (aliases : Aliases) :
    Stays (schema.tableItems state tokens aliases) (larger.tableItems state tokens aliases) := by
  fun_induction Registry.tableItems schema state tokens aliases with
  | case1 state aliases =>
      rw [tableItems]
      exact .refl _
  | case2 state aliases token rest separator ih =>
      rw [TableScan.tableItems_separator separator]
      exact ih.map _
  | case3 state aliases token rest notSeparator on ih =>
      rw [TableScan.tableItems_on on]
      exact ih.map _
  | case4 aliases token rest notSeparator notOn _ ih =>
      rw [TableScan.tableItems_entity (Query.Token.plain_of_tests notSeparator notOn)]
      apply Stays.bind (entity_stays within token.lexeme)
      intro entity
      exact (ih _).map _
  | case5 aliases token rest notSeparator notOn incomplete =>
      rw [TableScan.tableItems_incomplete
        (Query.Token.plain_of_tests notSeparator notOn) incomplete]
      exact .refl _
  | case6 aliases token rest notSeparator notOn right after complete _ ih =>
      rw [TableScan.tableItems_condition (Query.Token.plain_of_tests notSeparator notOn) complete]
      apply Stays.bind (field_stays within .referencingKey token.lexeme aliases)
      intro left
      apply Stays.bind (field_stays within .referencingKey right.lexeme left.2)
      intro other
      exact (ih other.2).map _
  | case7 aliases token rest notSeparator notOn ih =>
      rw [TableScan.tableItems_any (Query.Token.plain_of_tests notSeparator notOn)]
      apply Stays.bind (token_stays within .referencingKey token aliases)
      intro one
      exact (ih one.2).map _

theorem tableClause_stays (within : schema.Within larger) (text : String) (aliases : Aliases) :
    Stays (schema.tableClause text aliases) (larger.tableClause text aliases) := by
  apply Stays.bind (.refl _)
  intro tokens
  exact (tableItems_stay within .entity tokens aliases).map _

theorem condition_stays (within : schema.Within larger) (marks : Query.MarkSet)
    (entityEnd : EntityEnd) (text? : Option String) (aliases : Aliases) :
    Stays (schema.condition marks entityEnd text? aliases)
      (larger.condition marks entityEnd text? aliases) := by
  cases text? with
  | none => exact .refl _
  | some text =>
      apply Stays.bind (.refl _)
      intro tokens
      exact tokens_stay within entityEnd tokens aliases

/-! ## Queries and mutations -/

theorem compileClauses_stays (within : schema.Within larger) (clauses : Query.Clauses) :
    Stays (schema.compileClauses clauses) (larger.compileClauses clauses) := by
  apply Stays.bind (tableClause_stays within clauses.table .empty)
  rintro ⟨⟨first, tail⟩, bound⟩
  apply Stays.bind (selectClause_stays within clauses.select bound)
  rintro ⟨columns, selected⟩
  apply Stays.bind (condition_stays within .filter .identifier clauses.filter? selected)
  rintro ⟨filter, filtered⟩
  exact (condition_stays within .order .referencingKey clauses.order? filtered).map _

/-- **What a schema answers to a query, a larger one answers too**, unless it is that an entity is
unknown. -/
theorem compile_stays (within : schema.Within larger) (query : String) :
    Stays (schema.compile query) (larger.compile query) := by
  apply Stays.bind (.refl _)
  intro clauses
  exact compileClauses_stays within clauses

/-- **What a schema answers to a mutation, a larger one answers too**, unless it is that an entity
is unknown. -/
theorem mutate_stays (within : schema.Within larger) (mutation : Mutation) (instance_ : Instance) :
    Stays (schema.mutate mutation instance_) (larger.mutate mutation instance_) := by
  unfold mutate
  cases found : schema.lookup instance_.entity with
  | none => exact .inl ⟨_, rfl⟩
  | some entity =>
      rw [within.lookup found]
      exact .refl _

/-- **Registering more entities never changes an answer that does not hinge on a missing entity.**
-/
theorem answers_stay (schema larger : Schema) (within : schema.Within larger) :
    (∀ query, (∀ name, schema.compile query ≠ .error (.unknownEntity name)) →
      larger.compile query = schema.compile query) ∧
    ∀ mutation instance_,
      (∀ name, schema.mutate mutation instance_ ≠ .error (.unknownEntity name)) →
      larger.mutate mutation instance_ = schema.mutate mutation instance_ :=
  ⟨fun query => (compile_stays within query).eq_of_known,
    fun mutation instance_ => (mutate_stays within mutation instance_).eq_of_known⟩

end Schema

/-- The sample schema before tags were registered. -/
def Sample.places : Schema where
  entities := [area, shop]
  distinct := by decide
  wellFormed := fun entity member =>
    schema.wellFormed entity (List.mem_append_left [tag] member)

/-- A shop that is known by its number alone. -/
def Sample.firstShop : Instance :=
  .ofFields "Shop" [("id", some (.int 1))]

namespace Schema

/-- Registering tags changes neither a query over shops nor the deletion of a shop. A query over
tags was refused before, because there were none. -/
theorem answers_stay_tags :
    Sample.places.Within Sample.schema ∧
    (∃ compiled, Sample.places.compile "select s.area.name from Shop s" = .ok compiled ∧
      Sample.schema.compile "select s.area.name from Shop s" = .ok compiled) ∧
    Sample.schema.mutate .delete Sample.firstShop = .ok "delete from t_shop where id = 1" ∧
    (Sample.places.compile "select g.label from Tag g").toOption.map Compiled.sql = none ∧
    (Sample.schema.compile "select g.label from Tag g").toOption.map Compiled.sql =
      some "select t0.label from t_tag t0" := by
  have registered : Sample.places.register Sample.tag = .ok Sample.schema :=
    register_eq_ok_iff.mpr ⟨Sample.schema.wellFormed Sample.tag (by simp [Sample.schema]), rfl, rfl⟩
  have within := within_of_register registered
  have shown : (Sample.places.compile "select s.area.name from Shop s").toOption.map Compiled.sql =
      some "select t1.name from t_shop t0 left join t_area t1 on t0.area_id = t1.id" := by
    decide +kernel
  have deleted : Sample.places.mutate .delete Sample.firstShop =
      .ok "delete from t_shop where id = 1" := by
    decide +kernel
  obtain ⟨compiled, accepted, _⟩ := exists_ok_of_shown shown
  obtain ⟨queries, mutations⟩ := answers_stay Sample.places Sample.schema within
  refine ⟨within, ⟨compiled, accepted, ?_⟩, ?_, by decide +kernel, by decide +kernel⟩
  · rw [queries _ (fun name => by simp [accepted]), accepted]
  · rw [mutations _ _ (fun name => by simp [deleted]), deleted]

end Schema

end EntityQuery

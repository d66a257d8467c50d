import EntityQuery.Mapping.Query
import EntityQuery.Proofs.Resolution.SelectClause
import EntityQuery.Proofs.Resolution.TableClause
import EntityQuery.Proofs.Sample

/-!
# Resolution of queries

A compiled query comes from a run over the parts of its table clause, from no aliases on, and from
hops that the other clauses take after it (`queryRun_of_ok`). Its aliases and its joins are those of
the last table, which can be reached.

Hence every column reference of a compiled query is well typed over its aliases, and every join
reads a foreign key of its owner against the column that the key refers to (`compile_wellTyped`).
-/

set_option autoImplicit false

namespace EntityQuery

open Registry
open Aliases (Reached Realizes Resolved)

namespace Schema

variable {schema : Schema}

/-- The clauses of a query compiled one after another, each over the alias table that the one before
it leaves. -/
inductive Stages (schema : Schema) (clauses : Query.Clauses) : Compiled → Prop where
  | clauses {first : Sql.TableRef} {tail : List Sql.TableItem}
      {columns filter order : List Sql.Expr}
      {bound selected filtered last : Aliases}
      (table : schema.tableClause clauses.table .empty = .ok ((first, tail), bound))
      (select : schema.selectClause clauses.select bound = .ok (columns, selected))
      (filterOk : schema.condition .filter .identifier clauses.filter? selected =
        .ok (filter, filtered))
      (orderOk : schema.condition .order .referencingKey clauses.order? filtered =
        .ok (order, last)) :
      Stages schema clauses
        { select := { columns, first, joins := last.joins.map Join.toLeftJoin, tail, filter, order }
          aliases := last.entries }

/-- The clauses of a compiled query are compiled one after another. -/
theorem stages_of_ok {clauses : Query.Clauses} {compiled : Compiled}
    (succeeds : schema.compileClauses clauses = .ok compiled) : schema.Stages clauses compiled := by
  obtain ⟨⟨⟨first, tail⟩, bound⟩, tableOk, rest⟩ := ok_of_bind succeeds
  obtain ⟨⟨columns, selected⟩, selectOk, rest⟩ := ok_of_bind rest
  obtain ⟨⟨filter, filtered⟩, filterOk, rest⟩ := ok_of_bind rest
  obtain ⟨⟨order, last⟩, orderOk, same⟩ := ok_of_bind rest
  cases same
  exact .clauses tableOk selectOk filterOk orderOk

/-- Clauses that are compiled one after another are a compiled query. -/
theorem Stages.compileClauses_eq {clauses : Query.Clauses} {compiled : Compiled}
    (stages : schema.Stages clauses compiled) : schema.compileClauses clauses = .ok compiled := by
  obtain ⟨tableOk, selectOk, filterOk, orderOk⟩ := stages
  exact bind_ok tableOk (bind_ok selectOk (bind_ok filterOk (bind_ok orderOk rfl)))

theorem condition_keeps {marks : Query.MarkSet} {entityEnd : EntityEnd} {text? : Option String}
    {aliases later : Aliases} {exprs : List Sql.Expr}
    (succeeds : schema.condition marks entityEnd text? aliases = .ok (exprs, later)) :
    aliases.Keeps later := by
  cases text? with
  | none =>
      cases succeeds
      exact .refl _
  | some text =>
      obtain ⟨tokens, _, resolved⟩ := ok_of_bind succeeds
      exact tokens_keep resolved

/-- A compiled query is split into clauses, which are compiled one after another. -/
theorem exists_stages {query : String} {compiled : Compiled}
    (accepted : schema.compile query = .ok compiled) :
    ∃ clauses, Query.splitClauses query = .ok clauses ∧ schema.Stages clauses compiled := by
  obtain ⟨clauses, split, rest⟩ := ok_of_bind accepted
  exact ⟨clauses, ok_of_mapError split, stages_of_ok rest⟩

/-- A compiled query with the alias table after its table clause and the one after all clauses. -/
inductive QueryRun (schema : Schema) : Compiled → Prop where
  | clauses {first : Sql.TableRef} {items tail : List Sql.TableItem}
      {columns filter order : List Sql.Expr} {bound last : Aliases}
      (run : schema.TableRun .empty items bound)
      (split : splitFirstTable? items = some (first, tail))
      (others : Resolved schema bound
        (Sql.Expr.referencesOf columns ++ Sql.Expr.referencesOf filter ++
          Sql.Expr.referencesOf order)
        last) :
      QueryRun schema
        { select := { columns, first, joins := last.joins.map Join.toLeftJoin, tail, filter, order }
          aliases := last.entries }

theorem condition_resolved {marks : Query.MarkSet} {entityEnd : EntityEnd} {text? : Option String}
    {aliases later : Aliases} {exprs : List Sql.Expr} (reached : Reached schema aliases)
    (succeeds : schema.condition marks entityEnd text? aliases = .ok (exprs, later)) :
    Resolved schema aliases (Sql.Expr.referencesOf exprs) later := by
  cases text? with
  | none =>
      cases succeeds
      exact .nil _
  | some text =>
      obtain ⟨tokens, _, resolved⟩ := ok_of_bind succeeds
      exact tokens_resolved reached resolved

/-- The parts of a table clause are a run, whose first table is the first table of the clause. -/
theorem tableRun_of_tableClause {text : String} {aliases later : Aliases} {first : Sql.TableRef}
    {tail : List Sql.TableItem} (reached : Reached schema aliases)
    (succeeds : schema.tableClause text aliases = .ok ((first, tail), later)) :
    ∃ items, schema.TableRun aliases items later ∧ splitFirstTable? items = some (first, tail) := by
  obtain ⟨tokens, items, _, itemsOk, split⟩ := exists_items_of_tableClause succeeds
  exact ⟨items, tableRun_of_ok reached itemsOk, split⟩

/-- **A compiled query comes from a run.** -/
theorem queryRun_of_ok {query : String} {compiled : Compiled}
    (accepted : schema.compile query = .ok compiled) : schema.QueryRun compiled := by
  obtain ⟨clauses, _, tableOk, selectOk, filterOk, orderOk⟩ := exists_stages accepted
  obtain ⟨items, run, split⟩ := tableRun_of_tableClause .empty tableOk
  have reachedBound := run.reached .empty
  have shown := selectClause_resolved reachedBound selectOk
  have filtering := condition_resolved (shown.reached reachedBound) filterOk
  have both := shown.append filtering
  have ordering := condition_resolved (both.reached reachedBound) orderOk
  exact .clauses run split (both.append ordering)

/-! ## Well-typed queries -/

/-- A join of a query: a foreign key of the owner under its alias equals the column that the key
refers to, under an alias of the target of the key's relation. -/
def JoinsAlongKey (schema : Schema) (entries : List (String × Occurrence)) (join : Sql.LeftJoin) :
    Prop :=
  ∃ ownerAlias ownerOccurrence owner column relation referenced targetOccurrence,
    join.condition = .equation (.column (.of ownerAlias column.columnName))
        (.column (.of join.target.alias_ referenced)) ∧
      entries.lookup ownerAlias = some ownerOccurrence ∧
      schema.lookup ownerOccurrence.entity = some owner ∧ column ∈ owner.columns ∧
      column.reference? = some referenced ∧ owner.relation? column.property = some relation ∧
      entries.lookup join.target.alias_ = some targetOccurrence ∧
      targetOccurrence.entity = relation.entity

theorem reference_of_hop? {entity : Entity} {column : Column} {relation : Relation}
    (leads : entity.hop? column = some relation) :
    column.reference? = some column.referenceName ∧
      entity.relation? column.property = some relation := by
  rw [Entity.hop?, Option.ite_none_right_eq_some] at leads
  obtain ⟨foreignKey, related⟩ := leads
  obtain ⟨name, referenced⟩ := Option.isSome_iff_exists.mp foreignKey
  refine ⟨?_, related⟩
  rw [Column.referenceName, referenced]
  rfl

/-- A join that realizes an entry is well typed over the entries. -/
theorem joinsAlongKey_of_realizes {aliases : Aliases} {join : Join} {entry : String × Occurrence}
    (realizes : Realizes schema aliases join entry) (member : entry ∈ aliases.entries) :
    schema.JoinsAlongKey aliases.entries join.toLeftJoin := by
  cases realizes with
  | @hop owner ownerAlias column target hop alias_ =>
      obtain ⟨source?, ownerEntry⟩ := hop.stands
      obtain ⟨own, relation, leads, found⟩ := hop.leads
      obtain ⟨referenced, related⟩ := reference_of_hop? leads
      exact ⟨ownerAlias, _, owner, column, relation, column.referenceName, _, rfl,
        Aliases.lookup_entries_iff.mpr ownerEntry, hop.registered, own, referenced, related,
        Aliases.lookup_entries_iff.mpr member, schema.name_of_lookup found⟩

/-- The joins of a table that can be reached are well typed over its entries. -/
theorem joins_wellTyped {aliases : Aliases} (reached : Reached schema aliases) :
    ∀ join ∈ aliases.joins, schema.JoinsAlongKey aliases.entries join.toLeftJoin := by
  intro join member
  obtain ⟨entry, inside, realizes⟩ := Aliases.exists_related_of_mem reached.sound.joined member
  exact joinsAlongKey_of_realizes realizes (List.mem_of_mem_filter inside)

/-- **The column references of a compiled query are well typed.** Every reference in the select
list, the table clause, the condition or the order is to a column of the entity that its alias
stands for, and every join reads a foreign key of its owner against the column that the key refers
to. -/
theorem compile_wellTyped (schema : Schema) (query : String) (compiled : Compiled)
    (accepted : schema.compile query = .ok compiled) :
    (∀ reference ∈ compiled.select.references, schema.HasColumn compiled.aliases reference) ∧
      ∀ join ∈ compiled.select.joins, schema.JoinsAlongKey compiled.aliases join := by
  cases queryRun_of_ok accepted with
  | @clauses first items tail columns filter order bound last run split others =>
      have reachedLast := others.reached (run.reached .empty)
      constructor
      · intro reference member
        simp only [Sql.Select.references, List.mem_append] at member
        rcases member with ((inColumns | inTail) | inFilter) | inOrder
        · exact others.typed reference (by simp [inColumns])
        · obtain ⟨item, itemMember, inside⟩ := List.mem_flatMap.mp inTail
          obtain ⟨before, after, rfl, rfl, _⟩ := splitFirstTable?_eq_some split
          have itemOfClause : item ∈ before ++ .table first :: after := by
            simp only [List.mem_append, List.mem_cons] at itemMember ⊢
            exact itemMember.imp id .inr
          exact Aliases.hasColumn_mono others.hops.extends
            (run.typed item itemOfClause reference inside)
        · exact others.typed reference (by simp [inFilter])
        · exact others.typed reference (by simp [inOrder])
      · intro join member
        obtain ⟨described, inside, rfl⟩ := List.mem_map.mp member
        exact joins_wellTyped reachedLast described inside

/-- A query that takes the same hop in its select list, its condition and its order. -/
theorem compile_wellTyped_shops :
    ∃ compiled, Sample.schema.compile
        "select s.area.name from Shop s where s.area.id = 1 order by s.area" = .ok compiled ∧
      compiled.sql = "select t1.name from t_shop t0 left join t_area t1 on t0.area_id = t1.id"
        ++ " where t1.id = 1 order by t0.area_id" ∧
      (∀ reference ∈ compiled.select.references,
        Sample.schema.HasColumn compiled.aliases reference) ∧
      ∀ join ∈ compiled.select.joins, Sample.schema.JoinsAlongKey compiled.aliases join := by
  have shown : (Sample.schema.compile
      "select s.area.name from Shop s where s.area.id = 1 order by s.area").toOption.map
        Compiled.sql =
      some ("select t1.name from t_shop t0 left join t_area t1 on t0.area_id = t1.id"
        ++ " where t1.id = 1 order by t0.area_id") := by
    decide +kernel
  obtain ⟨compiled, accepted, text⟩ := exists_ok_of_shown shown
  exact ⟨compiled, accepted, text, compile_wellTyped Sample.schema _ compiled accepted⟩

end Schema

end EntityQuery

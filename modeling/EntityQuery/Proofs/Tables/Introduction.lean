import EntityQuery.Proofs.Resolution.Query

/-!
# Introduction of tables

The tables of a select stand in its text in the order of `Sql.Select.tables`: the first table, the
joined ones, and those in the rest of the table clause. They are introduced by different parts of a
compilation at interleaved times, and each of them presents an entry of the alias table
(`Presents`): the written tables the entries of the table clause, one for one and in the same order
(`TableRun.presents`), and the joined tables the entries of hops (`presents_joins`).

Hence a compiled query introduces every alias of its alias map exactly once and no other alias
(`compile_introduces`).
-/

set_option autoImplicit false

namespace EntityQuery

namespace Sql.Select

/-- The tables that a select names in its table clause. -/
def writtenTables (select : Select) : List TableRef :=
  select.first :: select.tail.filterMap TableItem.table?

/-- The tables that a select joins. -/
def joinedTables (select : Select) : List TableRef :=
  select.joins.map LeftJoin.target

/-- The tables of a select in the order of its text. -/
def tables (select : Select) : List TableRef :=
  select.first :: (select.joinedTables ++ select.tail.filterMap TableItem.table?)

theorem tables_perm (select : Select) :
    select.tables.Perm (select.writtenTables ++ select.joinedTables) :=
  List.perm_append_comm.cons select.first

end Sql.Select

/-- What a compiled query has to introduce: with `n` entries in its alias map, the aliases `t0` to
`t(n-1)`, each exactly once and for the table of the entity that the map records. -/
structure Compiled.Introduces (schema : Schema) (compiled : Compiled) : Prop where
  /-- The aliases of the map are numbered without gaps. -/
  keys : compiled.aliases.map Prod.fst = (List.range compiled.aliases.length).map aliasName
  /-- The tables of the select have the aliases of the map, and no others. -/
  once : (compiled.select.tables.map Sql.TableRef.alias_).Perm (compiled.aliases.map Prod.fst)
  /-- No alias is introduced twice. -/
  distinct : (compiled.select.tables.map Sql.TableRef.alias_).Nodup
  /-- Each table is the one of the entity that its alias stands for. -/
  physical : ∀ reference ∈ compiled.select.tables, ∃ occurrence entity,
    compiled.aliases.lookup reference.alias_ = some occurrence ∧
      schema.lookup occurrence.entity = some entity ∧ reference.table = entity.table
  /-- The first table has the first alias. -/
  first : compiled.select.first.alias_ = "t0"
  /-- The written tables are those of the entries without a source. -/
  written : ∀ alias_, alias_ ∈ compiled.select.writtenTables.map Sql.TableRef.alias_ ↔
    ∃ occurrence, compiled.aliases.lookup alias_ = some occurrence ∧ occurrence.source? = none
  /-- The joined tables are those of the entries with a source. -/
  joined : ∀ alias_, alias_ ∈ compiled.select.joinedTables.map Sql.TableRef.alias_ ↔
    ∃ occurrence source,
      compiled.aliases.lookup alias_ = some occurrence ∧ occurrence.source? = some source

open Aliases (Hops Reached Realizes)

namespace Registry

variable {registry : Registry}

/-! ## Tables that present entries -/

/-- The table has the alias of the entry and is the one of its entity. -/
def Presents (registry : Registry) (reference : Sql.TableRef)
    (entry : String × Occurrence) : Prop :=
  reference.alias_ = entry.1 ∧
    ∃ entity, registry.lookup entry.2.entity = some entity ∧ reference.table = entity.table

/-- Tables that present entries one for one have the aliases of the entries. -/
theorem aliases_of_presents {references : List Sql.TableRef} {entries : List (String × Occurrence)}
    (presents : List.Forall₂ registry.Presents references entries) :
    references.map Sql.TableRef.alias_ = entries.map Prod.fst := by
  induction presents with
  | nil => rfl
  | cons one _ ih => rw [List.map_cons, List.map_cons, one.1, ih]

/-- **The tables of a table clause present the entries that the clause adds.** The conditions
between them take hops, which add no written entries. -/
theorem TableRun.presents {aliases later : Aliases} {items : List Sql.TableItem}
    (run : registry.TableRun aliases items later) :
    ∃ added, later.writtenEntries = aliases.writtenEntries ++ added ∧
      List.Forall₂ registry.Presents (items.filterMap Sql.TableItem.table?) added := by
  induction run with
  | done aliases => exact ⟨[], (List.append_nil _).symm, .nil⟩
  | token resolved _ ih =>
      obtain ⟨added, whole, presents⟩ := ih
      rw [Hops.writtenEntries_eq resolved.hops] at whole
      exact ⟨added, whole, presents⟩
  | @table aliases _ entity written? _ registered _ ih =>
      obtain ⟨added, whole, presents⟩ := ih
      have one : registry.Presents ⟨entity.table, aliases.next⟩
          (aliases.next, ⟨entity.name, none⟩) :=
        ⟨rfl, entity, registered, rfl⟩
      refine ⟨(aliases.next, ⟨entity.name, none⟩) :: added, ?_, .cons one presents⟩
      rw [whole, Aliases.writtenEntries_bind, List.append_assoc, List.singleton_append]

/-- The joined tables present the entries of hops. -/
theorem presents_joins {aliases : Aliases} (reached : Reached registry aliases) :
    List.Forall₂ registry.Presents (aliases.joins.map fun join => join.toLeftJoin.target)
      aliases.hopEntries := by
  refine List.forall₂_map_left_iff.mpr (reached.sound.joined.imp fun join entry realizes => ?_)
  cases realizes with
  | @hop _ _ _ target hop _ => exact ⟨rfl, target, hop.leads.target_registered, rfl⟩

/-- The first written entry of a table that can be reached is its first entry, and has the first
alias. -/
theorem head_writtenEntries {aliases : Aliases} (reached : Reached registry aliases)
    {entry : String × Occurrence} {rest : List (String × Occurrence)}
    (written : aliases.writtenEntries = entry :: rest) : entry.1 = "t0" := by
  have inside : entry ∈ aliases.entries :=
    List.mem_of_mem_filter (written ▸ List.mem_cons_self .. : entry ∈ aliases.writtenEntries)
  obtain ⟨head, others, whole⟩ := List.exists_cons_of_ne_nil (List.ne_nil_of_mem inside)
  have headWritten : head.2.source? = none := reached.head_written (by rw [whole]; rfl)
  have same : head = entry := by
    simp only [Aliases.writtenEntries, whole, List.filter_cons, headWritten, Option.isNone_none,
      if_true, List.cons.injEq] at written
    exact written.1
  have keys := aliases.entries_keys
  rw [whole, List.length_cons, List.range_succ_eq_map] at keys
  exact same ▸ (List.cons.inj keys).1

end Registry

namespace Schema

open Registry

variable {schema : Schema}

/-- The tables of a compiled query present the entries of the table clause and those of hops. -/
theorem QueryRun.presents {compiled : Compiled} (run : schema.QueryRun compiled) :
    ∃ aliases, Reached schema aliases ∧ compiled.aliases = aliases.entries ∧
      List.Forall₂ schema.Presents compiled.select.writtenTables aliases.writtenEntries ∧
      List.Forall₂ schema.Presents compiled.select.joinedTables aliases.hopEntries := by
  cases run with
  | @clauses first items tail _ _ _ bound last run split others =>
      have reached := others.reached (run.reached .empty)
      have joined := presents_joins reached
      obtain ⟨added, whole, presents⟩ := run.presents
      have same : last.writtenEntries = added := (Hops.writtenEntries_eq others.hops).trans whole
      rw [tables_of_splitFirstTable? split] at presents
      refine ⟨last, reached, rfl, ?_, ?_⟩
      · rw [same]
        exact presents
      · rw [Sql.Select.joinedTables, List.map_map]
        exact joined

theorem QueryRun.first_alias {compiled : Compiled} (run : schema.QueryRun compiled) :
    compiled.select.first.alias_ = "t0" := by
  obtain ⟨aliases, reached, _, written, _⟩ := run.presents
  cases entries : aliases.writtenEntries with
  | nil =>
      rw [entries] at written
      cases written
  | cons entry rest =>
      rw [entries] at written
      cases written with
      | cons one _ => exact one.1.trans (head_writtenEntries reached entries)

/-! ## Compiled queries -/

/-- The tables of a compiled query have the aliases of its alias map, each once. -/
theorem QueryRun.names_perm {compiled : Compiled} (run : schema.QueryRun compiled) :
    (compiled.select.tables.map Sql.TableRef.alias_).Perm (compiled.aliases.map Prod.fst) := by
  obtain ⟨aliases, _, same, written, joined⟩ := run.presents
  have names := compiled.select.tables_perm.map Sql.TableRef.alias_
  rw [List.map_append, aliases_of_presents written, aliases_of_presents joined,
    ← List.map_append] at names
  rw [same]
  exact names.trans ((aliases.writtenEntries_append_hopEntries_perm).map Prod.fst)

/-- Every table of a compiled query presents an entry of its alias map. -/
theorem QueryRun.presented {compiled : Compiled} (run : schema.QueryRun compiled)
    {reference : Sql.TableRef} (member : reference ∈ compiled.select.tables) :
    ∃ entry ∈ compiled.aliases, schema.Presents reference entry := by
  obtain ⟨aliases, _, same, written, joined⟩ := run.presents
  rw [same]
  rcases List.mem_append.mp (compiled.select.tables_perm.mem_iff.mp member) with inClause | inJoins
  · obtain ⟨entry, inside, presents⟩ := Aliases.exists_related_of_mem written inClause
    exact ⟨entry, List.mem_of_mem_filter inside, presents⟩
  · obtain ⟨entry, inside, presents⟩ := Aliases.exists_related_of_mem joined inJoins
    exact ⟨entry, List.mem_of_mem_filter inside, presents⟩

/-- **A compiled query introduces every alias of its alias map exactly once and no other alias.** -/
theorem compile_introduces (schema : Schema) (query : String) (compiled : Compiled)
    (accepted : schema.compile query = .ok compiled) : compiled.Introduces schema := by
  have run := queryRun_of_ok accepted
  obtain ⟨aliases, _, same, written, joined⟩ := run.presents
  exact
    { keys := same ▸ aliases.entries_keys
      once := run.names_perm
      distinct := run.names_perm.nodup_iff.mpr (same ▸ aliases.keys_nodup)
      physical := by
        intro reference member
        obtain ⟨⟨alias_, occurrence⟩, inside, name, entity, registered, table⟩ :=
          run.presented member
        refine ⟨occurrence, entity, ?_, registered, table⟩
        rw [same] at inside ⊢
        exact name ▸ Aliases.lookup_entries_iff.mpr inside
      first := run.first_alias
      written := by
        intro alias_
        rw [aliases_of_presents written, same, Aliases.writtenEntries, Aliases.mem_names_filter_iff]
        simp only [Option.isNone_iff_eq_none]
      joined := by
        intro alias_
        rw [aliases_of_presents joined, same, Aliases.hopEntries, Aliases.mem_names_filter_iff]
        simp only [Option.isSome_iff_exists, exists_and_left] }

/-- A query with a table in the rest of its table clause and a joined table, which is introduced
before it but has the later alias. -/
theorem compile_introduces_shops :
    ∃ compiled, Sample.schema.compile "select s.area.name from Shop s, Tag g" = .ok compiled ∧
      compiled.sql =
        "select t2.name from t_shop t0 left join t_area t2 on t0.area_id = t2.id , t_tag t1" ∧
      compiled.Introduces Sample.schema := by
  have shown :
      (Sample.schema.compile "select s.area.name from Shop s, Tag g").toOption.map Compiled.sql =
        some
          "select t2.name from t_shop t0 left join t_area t2 on t0.area_id = t2.id , t_tag t1" := by
    decide +kernel
  obtain ⟨compiled, accepted, text⟩ := exists_ok_of_shown shown
  exact ⟨compiled, accepted, text, compile_introduces Sample.schema _ compiled accepted⟩

end Schema

end EntityQuery

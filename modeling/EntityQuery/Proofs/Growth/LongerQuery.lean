import EntityQuery.Proofs.Resolution.Query

/-!
# Longer queries

A query is compiled from left to right over one alias table, which only grows: the hops of an item
or of a condition add joins behind those that are there (`Aliases.Hops.joins_begin`) and entries
behind the old ones (`Aliases.Extends.entries_begin`), and further fragments of a select list are
kept behind those that are kept already (`keepFirst_append`).

So where one query begins another (`Query.Clauses.Begins`), its compilation begins that of the
other: what has been resolved is neither renumbered nor led elsewhere by later items or clauses
(`compile_begins`).
-/

set_option autoImplicit false

namespace EntityQuery

/-- Which of some expressions are kept does not depend on those behind them. -/
theorem keepFirstFrom_append (seen : List String) (exprs more : List Sql.Expr) :
    keepFirstFrom seen exprs <+: keepFirstFrom seen (exprs ++ more) := by
  induction exprs generalizing seen with
  | nil => exact List.nil_prefix
  | cons expr rest ih =>
      simp only [List.cons_append, keepFirstFrom]
      split
      · exact ih seen
      · exact List.cons_prefix_cons.mpr ⟨rfl, ih _⟩

theorem keepFirst_append (exprs more : List Sql.Expr) :
    keepFirst exprs <+: keepFirst (exprs ++ more) :=
  keepFirstFrom_append [] exprs more

namespace Aliases

variable {schema : Schema}

/-- Hops add joins behind those that are there. -/
theorem Hops.joins_begin {aliases later : Aliases} (hops : Hops schema aliases later) :
    aliases.joins <+: later.joins := by
  induction hops with
  | refl => exact List.prefix_rfl
  | tail _ step ih =>
      rcases step.cases_join with rfl | ⟨_, _, _, _, _, _, rfl⟩
      · exact ih
      · exact ih.trans (List.prefix_append _ _)

end Aliases

namespace Query

/-- One query begins another over the same table clause: it has the first items of the select list
and nothing behind, or the same select clause and fewer of the clauses behind. -/
inductive Clauses.Begins (clauses longer : Clauses) : Prop where
  | items {items more : List String} (sameTable : clauses.table = longer.table)
      (split : splitSelectList clauses.select = .ok items)
      (splitLonger : splitSelectList longer.select = .ok (items ++ more))
      (noFilter : clauses.filter? = none) (noOrder : clauses.order? = none)
  | clauses (sameTable : clauses.table = longer.table) (sameSelect : clauses.select = longer.select)
      (filter : clauses.filter? = none ∨ clauses.filter? = longer.filter?)
      (noOrder : clauses.order? = none)

end Query

/-- One compiled query begins another: the columns, the joins and the entries of the alias map stand
in front of those of the other, and the table clauses are the same. -/
structure Compiled.Begins (compiled longer : Compiled) : Prop where
  columns : compiled.select.columns <+: longer.select.columns
  first : compiled.select.first = longer.select.first
  joins : compiled.select.joins <+: longer.select.joins
  tail : compiled.select.tail = longer.select.tail
  aliases : compiled.aliases <+: longer.aliases

namespace Schema

open Aliases (Hops Reached)

variable {schema : Schema}

/-- The items of a select list are treated one after another. -/
theorem exists_of_selectItems_append {items more : List String} {aliases later : Aliases}
    {exprs : List Sql.Expr}
    (succeeds : schema.selectItems (items ++ more) aliases = .ok (exprs, later)) :
    ∃ front middle others, schema.selectItems items aliases = .ok (front, middle) ∧
      schema.selectItems more middle = .ok (others, later) ∧ exprs = front ++ others := by
  induction items generalizing aliases exprs with
  | nil => exact ⟨[], aliases, exprs, rfl, succeeds, rfl⟩
  | cons item rest ih =>
      obtain ⟨one, after, all, oneOk, allOk, rfl⟩ := selectItems_cons_eq_ok_iff.mp succeeds
      obtain ⟨front, middle, others, frontOk, othersOk, rfl⟩ := ih allOk
      refine ⟨one ++ front, middle, others, ?_, othersOk, (List.append_assoc _ _ _).symm⟩
      exact selectItems_cons_eq_ok_iff.mpr ⟨one, after, front, oneOk, frontOk, rfl⟩

/-- Select clauses over the same table, of which one has the first items of the other: its columns
stand in front, and hops lead from the table that it leaves to that which the other leaves. -/
theorem selectClause_begins {text longer : String} {items more : List String}
    {aliases later laterToo : Aliases} {columns all : List Sql.Expr}
    (reached : Reached schema aliases) (split : Query.splitSelectList text = .ok items)
    (splitLonger : Query.splitSelectList longer = .ok (items ++ more))
    (succeeds : schema.selectClause text aliases = .ok (columns, later))
    (succeedsToo : schema.selectClause longer aliases = .ok (all, laterToo)) :
    columns <+: all ∧ Hops schema later laterToo := by
  obtain ⟨_, exprs, splitText, resolved, _, rfl⟩ := selectClause_eq_ok_iff.mp succeeds
  obtain ⟨_, allExprs, splitAll, allResolved, _, rfl⟩ := selectClause_eq_ok_iff.mp succeedsToo
  cases split.symm.trans splitText
  cases splitLonger.symm.trans splitAll
  obtain ⟨front, middle, others, frontOk, othersOk, rfl⟩ := exists_of_selectItems_append allResolved
  cases resolved.symm.trans frontOk
  have reachedMiddle := (selectItems_resolved reached resolved).reached reached
  exact ⟨keepFirst_append exprs others, (selectItems_resolved reachedMiddle othersOk).hops⟩

/-- An absent clause leaves the table as it is. -/
theorem eq_of_condition_none {marks : Query.MarkSet} {entityEnd : EntityEnd} {text? : Option String}
    {aliases later : Aliases} {exprs : List Sql.Expr} (absent : text? = none)
    (succeeds : schema.condition marks entityEnd text? aliases = .ok (exprs, later)) :
    later = aliases := by
  subst absent
  cases succeeds
  rfl

/-- The table that a clause leaves is reached by hops from the one that it starts from. -/
theorem condition_hops {marks : Query.MarkSet} {entityEnd : EntityEnd} {text? : Option String}
    {aliases later : Aliases} {exprs : List Sql.Expr} (reached : Reached schema aliases)
    (succeeds : schema.condition marks entityEnd text? aliases = .ok (exprs, later)) :
    Hops schema aliases later :=
  (condition_resolved reached succeeds).hops

/-- Where one of two queries begins the other, its columns and tables stand in front, and hops lead
from its last alias table to that of the other. -/
theorem Stages.begins {clauses longer : Query.Clauses} {compiled continued : Compiled}
    (begins : clauses.Begins longer) (stages : schema.Stages clauses compiled)
    (stagesToo : schema.Stages longer continued) : compiled.Begins continued := by
  cases stages with
  | @clauses first tail columns filter order bound selected filtered last tableOk selectOk filterOk
      orderOk =>
  cases stagesToo with
  | @clauses firstToo tailToo columnsToo filterToo orderToo boundToo selectedToo filteredToo lastToo
      tableOkToo selectOkToo filterOkToo orderOkToo =>
  have sameTable : clauses.table = longer.table := by cases begins <;> assumption
  have noOrder : clauses.order? = none := by cases begins <;> assumption
  rw [sameTable] at tableOk
  cases tableOk.symm.trans tableOkToo
  have reachedBound : Reached schema bound := by
    obtain ⟨_, run, _⟩ := tableRun_of_tableClause .empty tableOkToo
    exact run.reached .empty
  have reachedSelected := (selectClause_resolved reachedBound selectOkToo).reached reachedBound
  have filtering := condition_hops reachedSelected filterOkToo
  have ordering := condition_hops (reachedSelected.hops filtering) orderOkToo
  cases eq_of_condition_none noOrder orderOk
  obtain ⟨inFront, hops⟩ : columns <+: columnsToo ∧ Hops schema filtered lastToo := by
    cases begins with
    | items _ split splitLonger noFilter _ =>
        obtain ⟨inFront, selecting⟩ :=
          selectClause_begins reachedBound split splitLonger selectOk selectOkToo
        cases eq_of_condition_none noFilter filterOk
        exact ⟨inFront, selecting.trans (filtering.trans ordering)⟩
    | clauses _ sameSelect fewer _ =>
        rw [sameSelect] at selectOk
        cases selectOk.symm.trans selectOkToo
        refine ⟨List.prefix_rfl, ?_⟩
        rcases fewer with noFilter | sameFilter
        · cases eq_of_condition_none noFilter filterOk
          exact filtering.trans ordering
        · rw [sameFilter] at filterOk
          cases filterOk.symm.trans filterOkToo
          exact ordering
  exact
    { columns := inFront
      first := rfl
      joins := hops.joins_begin.map _
      tail := rfl
      aliases := hops.extends.entries_begin }

/-- **What has been resolved stays when a query goes on.** Of two queries that are accepted, if the
one begins the other then its compilation begins that of the other: later items and clauses add
columns, joins and aliases behind, and change nothing. -/
theorem compile_begins (schema : Schema) (query longer : String) (clauses more : Query.Clauses)
    (split : Query.splitClauses query = .ok clauses)
    (splitLonger : Query.splitClauses longer = .ok more) (begins : clauses.Begins more)
    (compiled continued : Compiled) (accepted : schema.compile query = .ok compiled)
    (acceptedToo : schema.compile longer = .ok continued) : compiled.Begins continued := by
  obtain ⟨_, splitQuery, stages⟩ := exists_stages accepted
  obtain ⟨_, splitToo, stagesToo⟩ := exists_stages acceptedToo
  cases split.symm.trans splitQuery
  cases splitLonger.symm.trans splitToo
  exact stages.begins begins stagesToo

/-- A query without joins, and one that goes on with an item and a condition, for which it takes a
hop. -/
theorem compile_begins_shops :
    ∃ clauses more compiled continued,
      Query.splitClauses "select s.id from Shop s" = .ok clauses ∧
      Query.splitClauses "select s.id, s.area.name from Shop s where s.area.id = 1" = .ok more ∧
      clauses.Begins more ∧
      Sample.schema.compile "select s.id from Shop s" = .ok compiled ∧
      compiled.sql = "select t0.id from t_shop t0" ∧
      Sample.schema.compile "select s.id, s.area.name from Shop s where s.area.id = 1" =
        .ok continued ∧
      continued.sql = "select t0.id,t1.name from t_shop t0"
        ++ " left join t_area t1 on t0.area_id = t1.id where t1.id = 1" ∧
      compiled.Begins continued := by
  have split : Query.splitClauses "select s.id from Shop s" =
      .ok ⟨"s.id", "Shop s", none, none⟩ := by
    decide +kernel
  have splitLonger : Query.splitClauses "select s.id, s.area.name from Shop s where s.area.id = 1" =
      .ok ⟨"s.id, s.area.name", "Shop s", some "s.area.id = 1", none⟩ := by
    decide +kernel
  have begins : Query.Clauses.Begins ⟨"s.id", "Shop s", none, none⟩
      ⟨"s.id, s.area.name", "Shop s", some "s.area.id = 1", none⟩ :=
    .items rfl (by decide +kernel : Query.splitSelectList "s.id" = .ok ["s.id"])
      (by decide +kernel :
        Query.splitSelectList "s.id, s.area.name" = .ok (["s.id"] ++ ["s.area.name"]))
      rfl rfl
  have shown : (Sample.schema.compile "select s.id from Shop s").toOption.map Compiled.sql =
      some "select t0.id from t_shop t0" := by
    decide +kernel
  have shownToo : (Sample.schema.compile
      "select s.id, s.area.name from Shop s where s.area.id = 1").toOption.map Compiled.sql =
      some ("select t0.id,t1.name from t_shop t0"
        ++ " left join t_area t1 on t0.area_id = t1.id where t1.id = 1") := by
    decide +kernel
  obtain ⟨compiled, accepted, text⟩ := exists_ok_of_shown shown
  obtain ⟨continued, acceptedToo, textToo⟩ := exists_ok_of_shown shownToo
  exact ⟨_, _, compiled, continued, split, splitLonger, begins, accepted, text,
    acceptedToo, textToo,
    compile_begins Sample.schema _ _ _ _ split splitLonger begins compiled continued accepted
      acceptedToo⟩

end Schema

end EntityQuery

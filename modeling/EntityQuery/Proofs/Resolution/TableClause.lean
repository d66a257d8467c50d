import EntityQuery.Mapping.TableClause
import EntityQuery.Proofs.Resolution.Paths

/-!
# Resolution of table clauses

The parts of a table clause as a run over alias tables: an entity binds an alias and gives a table,
and everything else is resolved from one alias table to the next and gives a token. What
`tableItems` returns is such a run (`tableRun_of_ok`), whatever the scanner expected where it stood.

The first table of a clause is taken out of its place, and only tokens stand before it
(`splitFirstTable?_eq_some`).
-/

set_option autoImplicit false

namespace EntityQuery

open Aliases (Reached Resolved)

/-- What follows an entity and its alias are tokens of the clause. -/
theorem takeAlias_subset (tokens : List Query.Token) : (takeAlias tokens).2 ⊆ tokens := by
  cases tokens with
  | nil => exact List.Subset.refl _
  | cons token rest =>
      rw [takeAlias]
      split
      · exact List.subset_cons_self token rest
      · exact List.Subset.refl _

/-- The right side of a condition and what follows it are tokens of the clause. -/
theorem takeCondition?_subset {left right : Query.Token} {tokens rest : List Query.Token}
    (found : takeCondition? left tokens = some (right, rest)) : right :: rest ⊆ tokens := by
  unfold takeCondition? at found
  split at found
  · split at found
    · cases found
      exact List.subset_cons_self _ _
    · cases found
  · cases found

namespace Registry

/-- The parts of a table clause, from one alias table to a later one. -/
inductive TableRun (registry : Registry) : Aliases → List Sql.TableItem → Aliases → Prop where
  | done (aliases : Aliases) : TableRun registry aliases [] aliases
  | token {aliases middle later : Aliases} {expr : Sql.Expr} {items : List Sql.TableItem}
      (resolved : Resolved registry aliases expr.references middle)
      (others : TableRun registry middle items later) :
      TableRun registry aliases (.token expr :: items) later
  | table {aliases later : Aliases} {entity : Entity} {written? : Option String}
      {items : List Sql.TableItem} (registered : registry.lookup entity.name = some entity)
      (others : TableRun registry (aliases.bind entity.name written?).2 items later) :
      TableRun registry aliases (.table ⟨entity.table, aliases.next⟩ :: items) later

variable {registry : Registry}

/-- **What `tableItems` returns is a run over alias tables.** -/
theorem tableRun_of_ok {state : TableState} {tokens : List Query.Token} {aliases later : Aliases}
    {items : List Sql.TableItem} (reached : Reached registry aliases)
    (succeeds : registry.tableItems state tokens aliases = .ok (items, later)) :
    registry.TableRun aliases items later := by
  fun_induction Registry.tableItems registry state tokens aliases generalizing items later with
  | case1 state aliases =>
      cases succeeds
      exact .done aliases
  | case2 state aliases token rest _ ih =>
      obtain ⟨⟨others, after⟩, remaining, same⟩ := ok_of_bind succeeds
      cases same
      exact .token (.nil aliases) (ih reached remaining)
  | case3 state aliases token rest _ _ ih =>
      obtain ⟨⟨others, after⟩, remaining, same⟩ := ok_of_bind succeeds
      cases same
      exact .token (.nil aliases) (ih reached remaining)
  | case4 aliases token rest _ _ _ ih =>
      obtain ⟨entity, found, bound⟩ := ok_of_bind succeeds
      obtain ⟨⟨others, after⟩, remaining, same⟩ := ok_of_bind bound
      cases same
      have registered := (registered_of_entity found).2
      exact .table registered (ih _ (.entry reached registered _) remaining)
  | case5 => cases succeeds
  | case6 aliases token rest _ _ right after _ _ ih =>
      obtain ⟨⟨leftColumn, middle⟩, left_ok, rest_ok⟩ := ok_of_bind succeeds
      obtain ⟨⟨rightColumn, last⟩, right_ok, others_ok⟩ := ok_of_bind rest_ok
      obtain ⟨⟨others, final⟩, remaining, same⟩ := ok_of_bind others_ok
      cases same
      have leftResolved := field_resolved reached left_ok
      have both := leftResolved.append (field_resolved (leftResolved.reached reached) right_ok)
      exact .token both (ih last (both.reached reached) remaining)
  | case7 aliases token rest _ _ ih =>
      obtain ⟨⟨expr, middle⟩, first, others_ok⟩ := ok_of_bind succeeds
      obtain ⟨⟨others, after⟩, remaining, same⟩ := ok_of_bind others_ok
      cases same
      have one := token_resolved reached first
      exact .token one (ih middle (one.reached reached) remaining)

/-- Every table that a run leads to can be reached. -/
theorem TableRun.reached {aliases later : Aliases} {items : List Sql.TableItem}
    (run : registry.TableRun aliases items later) (before : Reached registry aliases) :
    Reached registry later := by
  induction run with
  | done => exact before
  | token resolved _ ih => exact ih (resolved.reached before)
  | table registered _ ih => exact ih (.entry before registered _)

theorem TableRun.extends {aliases later : Aliases} {items : List Sql.TableItem}
    (run : registry.TableRun aliases items later) : aliases.Extends later := by
  induction run with
  | done aliases => exact .refl aliases
  | token resolved _ ih => exact resolved.hops.extends.trans ih
  | @table aliases _ entity written? _ _ _ ih =>
      exact (aliases.extends_bind entity.name written?).trans ih

/-- **The tokens of a table clause refer to well-typed columns.** -/
theorem TableRun.typed {aliases later : Aliases} {items : List Sql.TableItem}
    (run : registry.TableRun aliases items later) :
    ∀ item ∈ items, ∀ reference ∈ item.references, registry.HasColumn later.entries reference := by
  induction run with
  | done => exact fun _ member => nomatch member
  | token resolved others ih =>
      intro item member reference inside
      rcases List.mem_cons.mp member with rfl | more
      · exact Aliases.hasColumn_mono others.extends (resolved.typed reference inside)
      · exact ih item more reference inside
  | table _ _ ih =>
      intro item member reference inside
      rcases List.mem_cons.mp member with rfl | more
      · exact nomatch inside
      · exact ih item more reference inside

/-- The first table stands after tokens only, and the other parts keep their places. -/
theorem splitFirstTable?_eq_some {items tail : List Sql.TableItem} {first : Sql.TableRef}
    (split : splitFirstTable? items = some (first, tail)) :
    ∃ before after, items = before ++ .table first :: after ∧ tail = before ++ after ∧
      before.filterMap Sql.TableItem.table? = [] := by
  induction items generalizing tail with
  | nil => cases split
  | cons item rest ih =>
      cases item with
      | table reference =>
          cases split
          exact ⟨[], rest, rfl, rfl, rfl⟩
      | token expr =>
          rw [splitFirstTable?, Option.map_eq_some_iff] at split
          obtain ⟨⟨reference, others⟩, inner, same⟩ := split
          cases same
          obtain ⟨before, after, rfl, rfl, tokens⟩ := ih inner
          exact ⟨.token expr :: before, after, rfl, rfl, tokens⟩

/-- The tables of a clause are the first one and those among the other parts, in order. -/
theorem tables_of_splitFirstTable? {items tail : List Sql.TableItem} {first : Sql.TableRef}
    (split : splitFirstTable? items = some (first, tail)) :
    items.filterMap Sql.TableItem.table? = first :: tail.filterMap Sql.TableItem.table? := by
  obtain ⟨before, after, rfl, rfl, tokens⟩ := splitFirstTable?_eq_some split
  rw [List.filterMap_append, List.filterMap_append, tokens]
  rfl

/-- A table clause that is accepted has tokens, and its parts contain a table. -/
theorem exists_items_of_tableClause {text : String} {aliases later : Aliases}
    {clause : Sql.TableRef × List Sql.TableItem}
    (accepted : registry.tableClause text aliases = .ok (clause, later)) :
    ∃ tokens items, Query.tokenize .table text = .ok tokens ∧
      registry.tableItems .entity tokens aliases = .ok (items, later) ∧
      splitFirstTable? items = some clause := by
  obtain ⟨tokens, scanned, rest⟩ := ok_of_bind accepted
  obtain ⟨⟨items, after⟩, itemsOk, last⟩ := ok_of_bind rest
  dsimp only at last
  split at last
  · next split =>
    cases last
    exact ⟨tokens, items, ok_of_mapError scanned, itemsOk, split⟩
  · cases last

end Registry

end EntityQuery

import EntityQuery.Mapping.SelectClause
import EntityQuery.Proofs.Resolution.Expansion

/-!
# Resolution of select clauses

An item of a select list is a call whose arguments are resolved, a path to a column, or a path to an
entity that is expanded (`Schema.Selects`). Calls, paths and expansions take hops and refer to
well-typed columns, one item after the other (`selectItems_resolved`), and so does what is left when
repeated fragments are dropped (`selectClause_resolved`).
-/

set_option autoImplicit false

namespace EntityQuery

open Registry
open Aliases (Reached Resolved)

theorem keepFirstFrom_subset (seen : List String) (exprs : List Sql.Expr) :
    keepFirstFrom seen exprs ⊆ exprs := by
  induction exprs generalizing seen with
  | nil => exact List.Subset.refl _
  | cons expr rest ih =>
      intro kept member
      rw [keepFirstFrom] at member
      split at member
      · exact List.mem_cons_of_mem _ (ih seen member)
      · rcases List.mem_cons.mp member with rfl | later
        · exact List.mem_cons_self ..
        · exact List.mem_cons_of_mem _ (ih _ later)

/-- The expressions that are kept are among all of them. -/
theorem keepFirst_subset (exprs : List Sql.Expr) : keepFirst exprs ⊆ exprs :=
  keepFirstFrom_subset [] exprs

theorem references_keepFirst_subset (exprs : List Sql.Expr) :
    Sql.Expr.referencesOf (keepFirst exprs) ⊆ Sql.Expr.referencesOf exprs := by
  intro reference member
  obtain ⟨expr, kept, inside⟩ := Sql.Expr.mem_referencesOf.mp member
  exact Sql.Expr.mem_referencesOf.mpr ⟨expr, keepFirst_subset exprs kept, inside⟩

namespace Schema

variable {schema : Schema}

/-! ## What succeeds -/

/-- What an item of a select list stands for over an alias table, with the table after it: a call,
or what its path ends on, which is a column or an entity in full. -/
inductive Selects (schema : Schema) (item : String) (aliases : Aliases) :
    List Sql.Expr → Aliases → Prop where
  | call {name : String} {texts : List String} {arguments : List Sql.Expr} {later : Aliases}
      (read : Query.SelectItem.ofText? item = some (.call name texts))
      (resolved : schema.arguments texts aliases = .ok (arguments, later)) :
      Selects schema item aliases
        [.call (String.ofList (Text.lowercase name.toList)) arguments] later
  | column {text : String} {reference : Sql.ColumnRef} {later : Aliases}
      (read : Query.SelectItem.ofText? item = some (.path text))
      (walked : schema.walk (Path.ofText text) aliases = .ok (.column reference, later)) :
      Selects schema item aliases [.column reference] later
  | entity {text : String} {entity : Entity} {alias_ : String} {lastHop? : Option Sql.ColumnRef}
      {exprs : List Sql.Expr} {middle later : Aliases}
      (read : Query.SelectItem.ofText? item = some (.path text))
      (walked : schema.walk (Path.ofText text) aliases =
        .ok (.entity entity alias_ lastHop?, middle))
      (expanded : schema.expand entity alias_ middle = .ok (exprs, later)) :
      Selects schema item aliases exprs later

section

variable {aliases later : Aliases} {exprs : List Sql.Expr}

/-- The arguments of a call are resolved one after another. -/
theorem arguments_cons_eq_ok_iff {text : String} {rest : List String} :
    schema.arguments (text :: rest) aliases = .ok (exprs, later) ↔
      ∃ first middle others, schema.argument text aliases = .ok (first, middle) ∧
        schema.arguments rest middle = .ok (others, later) ∧ exprs = first :: others := by
  constructor
  · intro succeeds
    obtain ⟨⟨first, middle⟩, firstOk, remaining⟩ := ok_of_bind succeeds
    obtain ⟨⟨others, last⟩, othersOk, same⟩ := ok_of_bind remaining
    cases same
    exact ⟨first, middle, others, firstOk, othersOk, rfl⟩
  · rintro ⟨first, middle, others, firstOk, othersOk, rfl⟩
    exact bind_ok firstOk (bind_ok othersOk rfl)

/-- **An item of a select list stands for what `selectItem` returns.** -/
theorem selectItem_eq_ok_iff {item : String} :
    schema.selectItem item aliases = .ok (exprs, later) ↔
      schema.Selects item aliases exprs later := by
  constructor
  · intro succeeds
    unfold selectItem at succeeds
    split at succeeds
    · cases succeeds
    · next read =>
      obtain ⟨⟨arguments, after⟩, resolved, same⟩ := ok_of_bind succeeds
      cases same
      exact .call read resolved
    · next read =>
      obtain ⟨⟨destination, after⟩, walked, rest⟩ := ok_of_bind succeeds
      cases destination with
      | column reference =>
          cases rest
          exact .column read walked
      | entity entity alias_ lastHop? => exact .entity read walked rest
  · intro selects
    cases selects with
    | call read resolved =>
        rw [selectItem, read]
        exact bind_ok resolved rfl
    | column read walked =>
        rw [selectItem, read]
        exact bind_ok walked rfl
    | entity read walked expanded =>
        rw [selectItem, read]
        exact bind_ok walked expanded

/-- The items of a select list are treated one after another. -/
theorem selectItems_cons_eq_ok_iff {item : String} {rest : List String} :
    schema.selectItems (item :: rest) aliases = .ok (exprs, later) ↔
      ∃ first middle others, schema.selectItem item aliases = .ok (first, middle) ∧
        schema.selectItems rest middle = .ok (others, later) ∧ exprs = first ++ others := by
  constructor
  · intro succeeds
    obtain ⟨⟨first, middle⟩, firstOk, remaining⟩ := ok_of_bind succeeds
    obtain ⟨⟨others, last⟩, othersOk, same⟩ := ok_of_bind remaining
    cases same
    exact ⟨first, middle, others, firstOk, othersOk, rfl⟩
  · rintro ⟨first, middle, others, firstOk, othersOk, rfl⟩
    exact bind_ok firstOk (bind_ok othersOk rfl)

/-- A select clause is accepted if its items are and have columns, of which the first with each text
are kept. -/
theorem selectClause_eq_ok_iff {text : String} {columns : List Sql.Expr} :
    schema.selectClause text aliases = .ok (columns, later) ↔
      ∃ items exprs, Query.splitSelectList text = .ok items ∧
        schema.selectItems items aliases = .ok (exprs, later) ∧ exprs ≠ [] ∧
        columns = keepFirst exprs := by
  constructor
  · intro succeeds
    obtain ⟨items, split, rest⟩ := ok_of_bind succeeds
    obtain ⟨⟨exprs, after⟩, resolved, last⟩ := ok_of_bind rest
    dsimp only at last
    split at last
    · cases last
    · next notEmpty =>
      cases last
      exact ⟨items, exprs, ok_of_mapError split, resolved, mt List.isEmpty_iff.mpr notEmpty, rfl⟩
  · rintro ⟨items, exprs, split, resolved, notEmpty, rfl⟩
    refine bind_ok (congrArg _ split) (bind_ok resolved ?_)
    exact if_neg (mt List.isEmpty_iff.mp notEmpty)

end

/-! ## Tables of a query -/

theorem argument_resolved {text : String} {aliases later : Aliases} {expr : Sql.Expr}
    (reached : Reached schema aliases)
    (succeeds : schema.argument text aliases = .ok (expr, later)) :
    Resolved schema aliases expr.references later := by
  unfold argument at succeeds
  split at succeeds
  · exact field_resolved reached succeeds
  · cases succeeds
    exact .nil aliases

theorem arguments_resolved {texts : List String} {aliases later : Aliases} {exprs : List Sql.Expr}
    (reached : Reached schema aliases)
    (succeeds : schema.arguments texts aliases = .ok (exprs, later)) :
    Resolved schema aliases (Sql.Expr.referencesOf exprs) later := by
  induction texts generalizing aliases exprs with
  | nil =>
      cases succeeds
      exact .nil _
  | cons text rest ih =>
      obtain ⟨expr, middle, more, first, remaining, rfl⟩ := arguments_cons_eq_ok_iff.mp succeeds
      have one := argument_resolved reached first
      exact one.append (ih (one.reached reached) remaining)

/-- **An item of a select list refers to well-typed columns.** -/
theorem selectItem_resolved {item : String} {aliases later : Aliases} {exprs : List Sql.Expr}
    (reached : Reached schema aliases)
    (succeeds : schema.selectItem item aliases = .ok (exprs, later)) :
    Resolved schema aliases (Sql.Expr.referencesOf exprs) later := by
  cases selectItem_eq_ok_iff.mp succeeds with
  | call _ resolved =>
      exact (arguments_resolved reached resolved).subset
        (by simp [Sql.Expr.referencesOf, Sql.Expr.references])
  | column _ walked =>
      obtain ⟨hops, lands⟩ := walk_lands reached walked
      cases lands with
      | column typed =>
          refine ⟨hops, fun other member => ?_⟩
          simp only [Sql.Expr.referencesOf, Sql.Expr.references, List.append_nil,
            List.mem_singleton] at member
          exact member ▸ typed
  | entity _ walked expanded =>
      obtain ⟨hops, lands⟩ := walk_lands reached walked
      cases lands with
      | entity stands registered _ =>
          have resolved := expand_resolved stands registered expanded
          exact ⟨hops.trans resolved.hops, resolved.typed⟩

theorem selectItems_resolved {items : List String} {aliases later : Aliases}
    {exprs : List Sql.Expr} (reached : Reached schema aliases)
    (succeeds : schema.selectItems items aliases = .ok (exprs, later)) :
    Resolved schema aliases (Sql.Expr.referencesOf exprs) later := by
  induction items generalizing aliases exprs with
  | nil =>
      cases succeeds
      exact .nil _
  | cons item rest ih =>
      obtain ⟨first, middle, more, resolved, remaining, rfl⟩ :=
        selectItems_cons_eq_ok_iff.mp succeeds
      have one := selectItem_resolved reached resolved
      rw [Sql.Expr.referencesOf_append]
      exact one.append (ih (one.reached reached) remaining)

/-- **A select clause refers to well-typed columns.** -/
theorem selectClause_resolved {text : String} {aliases later : Aliases} {exprs : List Sql.Expr}
    (reached : Reached schema aliases)
    (succeeds : schema.selectClause text aliases = .ok (exprs, later)) :
    Resolved schema aliases (Sql.Expr.referencesOf exprs) later := by
  obtain ⟨items, all, _, resolved, _, rfl⟩ := selectClause_eq_ok_iff.mp succeeds
  exact (selectItems_resolved reached resolved).subset (references_keepFirst_subset all)

/-! ## Any table -/

theorem argument_keeps {text : String} {aliases later : Aliases} {expr : Sql.Expr}
    (succeeds : schema.argument text aliases = .ok (expr, later)) : aliases.Keeps later := by
  unfold argument at succeeds
  split at succeeds
  · exact field_keeps succeeds
  · cases succeeds
    exact .refl _

theorem arguments_keep {texts : List String} {aliases later : Aliases} {exprs : List Sql.Expr}
    (succeeds : schema.arguments texts aliases = .ok (exprs, later)) : aliases.Keeps later := by
  induction texts generalizing aliases exprs with
  | nil =>
      cases succeeds
      exact .refl _
  | cons text rest ih =>
      obtain ⟨expr, middle, more, first, remaining, rfl⟩ := arguments_cons_eq_ok_iff.mp succeeds
      exact (argument_keeps first).trans (ih remaining)

/-- **An item of a select list keeps the written names.** -/
theorem selectItem_keeps {item : String} {aliases later : Aliases} {exprs : List Sql.Expr}
    (succeeds : schema.selectItem item aliases = .ok (exprs, later)) : aliases.Keeps later := by
  cases selectItem_eq_ok_iff.mp succeeds with
  | call _ resolved => exact arguments_keep resolved
  | column _ walked => exact walk_keeps walked
  | entity _ walked expanded => exact (walk_keeps walked).trans (expansion_of_ok expanded).keeps

theorem selectItems_keep {items : List String} {aliases later : Aliases} {exprs : List Sql.Expr}
    (succeeds : schema.selectItems items aliases = .ok (exprs, later)) : aliases.Keeps later := by
  induction items generalizing aliases exprs with
  | nil =>
      cases succeeds
      exact .refl _
  | cons item rest ih =>
      obtain ⟨first, middle, more, resolved, remaining, rfl⟩ :=
        selectItems_cons_eq_ok_iff.mp succeeds
      exact (selectItem_keeps resolved).trans (ih remaining)

theorem selectClause_keeps {text : String} {aliases later : Aliases} {exprs : List Sql.Expr}
    (succeeds : schema.selectClause text aliases = .ok (exprs, later)) : aliases.Keeps later := by
  obtain ⟨_, _, _, resolved, _, _⟩ := selectClause_eq_ok_iff.mp succeeds
  exact selectItems_keep resolved

end Schema

end EntityQuery

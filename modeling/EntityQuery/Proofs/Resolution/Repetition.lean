import EntityQuery.Proofs.Resolution.SelectClause

/-!
# Repeated resolution

What has been resolved once is settled (`Settled`): over every later alias table with the same
written names it is resolved to the same again, and the table is left as it is. For a hop that has
been taken leads to its target, which now has an occurrence (`join_settled`), and so paths,
arguments, whole expansions and items of a select list are settled by the steps that they consist of
(`walk_settled`, `Expansion.settled`, `selectItem_settled`).
-/

set_option autoImplicit false

namespace EntityQuery

open Registry
open Aliases (Keeps)

/-- Over this alias table and every later one with the same written names, the step answers the
value and leaves the table as it is. -/
def Settled {α : Type} (step : Aliases → Except MappingError (α × Aliases)) (value : α)
    (aliases : Aliases) : Prop :=
  ∀ later, aliases.Keeps later → step later = .ok (value, later)

/-- What is settled stays so. -/
theorem Settled.mono {α : Type} {step : Aliases → Except MappingError (α × Aliases)} {value : α}
    {aliases later : Aliases} (settled : Settled step value aliases) (kept : aliases.Keeps later) :
    Settled step value later :=
  fun further keptToo => settled further (kept.trans keptToo)

/-- **A hop that has been taken leads to the same alias again**, and joins nothing. -/
theorem join_settled (aliases : Aliases) (owner : Entity) (ownerAlias : String) (column : Column)
    (target : Entity) {later : Aliases}
    (kept : (aliases.join owner ownerAlias column target).2.Keeps later) :
    later.join owner ownerAlias column target =
      ((aliases.join owner ownerAlias column target).1, later) := by
  have first := Aliases.first?_mono kept.more (aliases.first?_join owner ownerAlias column target)
  rw [Aliases.join, first]

namespace Registry

variable {registry : Registry} {aliases later : Aliases}

/-! ## Paths -/

theorem Following.settled {entity : Entity} {alias_ : String} {lastHop? : Option Sql.ColumnRef}
    {segments : List String} {destination : Destination}
    (following : registry.Following entity alias_ lastHop? segments aliases destination later) :
    Settled (registry.follow entity alias_ lastHop? segments) destination later := by
  intro further kept
  induction following with
  | ends => rfl
  | column _ _ _ named ordinary => simp only [follow, named, ordinary]
  | @hop entity target alias_ _ column _ _ aliases _ _ _ named leads known onwards ih =>
      have again := join_settled aliases entity alias_ column target (onwards.keeps.trans kept)
      simp only [follow, named, leads]
      refine bind_ok known ?_
      rw [again]
      exact ih kept

theorem walk_settled {path : Path} {destination : Destination}
    (walked : registry.walk path aliases = .ok (destination, later)) :
    Settled (registry.walk path) destination later := by
  intro further kept
  have same := ((walk_keeps walked).trans kept).resolve?_eq path.head
  obtain ⟨binding, entity, found, known, followed⟩ := walk_eq_ok_iff.mp walked
  exact walk_eq_ok_iff.mpr
    ⟨binding, entity, same.trans found, known, (following_of_ok followed).settled further kept⟩

theorem field_settled {entityEnd : EntityEnd} {text : String} {expr : Sql.Expr}
    (succeeds : registry.field entityEnd text aliases = .ok (expr, later)) :
    Settled (registry.field entityEnd text) expr later := by
  obtain ⟨destination, reference, walked, stands, rfl⟩ := field_eq_ok_iff.mp succeeds
  exact fun further kept =>
    field_eq_ok_iff.mpr ⟨destination, reference, walk_settled walked further kept, stands, rfl⟩

end Registry

namespace Schema

variable {schema : Schema} {aliases later : Aliases}

/-! ## Calls -/

theorem argument_settled {text : String} {expr : Sql.Expr}
    (succeeds : schema.argument text aliases = .ok (expr, later)) :
    Settled (schema.argument text) expr later := by
  intro further kept
  have same := ((argument_keeps succeeds).trans kept).resolve?_eq text
  unfold argument at succeeds ⊢
  rw [same]
  split at succeeds
  · next isField =>
    rw [if_pos isField]
    exact field_settled succeeds further kept
  · next noField =>
    cases succeeds
    rw [if_neg noField]

theorem arguments_settled {texts : List String} {exprs : List Sql.Expr}
    (succeeds : schema.arguments texts aliases = .ok (exprs, later)) :
    Settled (schema.arguments texts) exprs later := by
  induction texts generalizing aliases exprs with
  | nil =>
      cases succeeds
      exact fun _ _ => rfl
  | cons text rest ih =>
      obtain ⟨expr, middle, more, first, remaining, rfl⟩ := arguments_cons_eq_ok_iff.mp succeeds
      have one := (argument_settled first).mono (arguments_keep remaining)
      exact fun further kept => arguments_cons_eq_ok_iff.mpr
        ⟨expr, further, more, one further kept, ih remaining further kept, rfl⟩

/-! ## Expansions -/

/-- **An expansion is settled**, with every level of it. -/
theorem Expansion.settled {visiting : List String} {entity : Entity} {alias_ : String}
    {columns : List Column} {exprs : List Sql.Expr}
    (expansion : schema.Expansion visiting entity alias_ columns aliases exprs later) :
    Settled (schema.expandColumns visiting entity alias_ columns) exprs later := by
  induction expansion with
  | done =>
      intro further _
      rw [expandColumns]
  | shown ordinary _ ih =>
      intro further kept
      rw [expandColumns, ordinary]
      exact bind_ok (ih further kept) rfl
  | @skipped visiting entity alias_ column rest aliases later exprs relation leads skip _ ih =>
      intro further kept
      rw [expandColumns, leads]
      dsimp only
      by_cases isLazy : relation.eager = false
      · rw [if_pos isLazy]
        exact ih further kept
      · rw [if_neg isLazy, dif_pos (skip (by simpa using isLazy))]
        exact ih further kept
  | @opened visiting entity alias_ column rest aliases middle later inner exprs relation
      target leads eager
      fresh found inside others ihInside ihOthers =>
      intro further kept
      have keptInside := others.keeps.trans kept
      have again := join_settled aliases entity alias_ column target (inside.keeps.trans keptInside)
      rw [expandColumns_opened leads eager fresh found, again]
      exact bind_ok (ihInside further keptInside) (bind_ok (ihOthers further kept) rfl)

theorem expand_settled {entity : Entity} {alias_ : String} {exprs : List Sql.Expr}
    (succeeds : schema.expand entity alias_ aliases = .ok (exprs, later)) :
    Settled (schema.expand entity alias_) exprs later :=
  (expansion_of_ok succeeds).settled

/-! ## Items -/

/-- **An item of a select list is settled**: when it is resolved again it stands for the same
fragments, and adds no join and no alias. -/
theorem selectItem_settled {item : String} {exprs : List Sql.Expr}
    (succeeds : schema.selectItem item aliases = .ok (exprs, later)) :
    Settled (schema.selectItem item) exprs later := by
  intro further kept
  refine selectItem_eq_ok_iff.mpr ?_
  cases selectItem_eq_ok_iff.mp succeeds with
  | call read resolved => exact .call read (arguments_settled resolved further kept)
  | column read walked => exact .column read (walk_settled walked further kept)
  | entity read walked expanded =>
      have keptToo := (expansion_of_ok expanded).keeps.trans kept
      exact .entity read (walk_settled walked further keptToo)
        (expand_settled expanded further kept)

end Schema

end EntityQuery

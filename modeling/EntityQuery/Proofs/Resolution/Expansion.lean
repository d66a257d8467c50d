import EntityQuery.Mapping.Expansion
import EntityQuery.Proofs.Resolution.Paths

/-!
# Expansions

An expansion of columns, as a derivation with one rule for each way to treat a column: an ordinary
column is shown, a relation that is lazy or leads back to an entity being expanded is skipped, and
any other eager relation is opened, its target being expanded in its turn. What `expandColumns`
returns has such a derivation (`expansion_of_ok`).

Every expansion extends the alias table and keeps the written names (`Expansion.keeps`). From a
registered entity under one of its aliases it takes hops and shows well-typed columns
(`Expansion.resolved`). Each hop is along the first column of its property: where a later column has
the same one, its target has been joined for the first (`Treated`).
-/

set_option autoImplicit false

namespace EntityQuery

open Aliases (Hops Resolved)

namespace Schema

/-- The expansion of columns of an entity under an alias, while the entities in `visiting` are being
expanded, from one alias table to a later one. -/
inductive Expansion (schema : Schema) : List String → Entity → String → List Column → Aliases →
    List Sql.Expr → Aliases → Prop where
  | done (visiting : List String) (entity : Entity) (alias_ : String) (aliases : Aliases) :
      Expansion schema visiting entity alias_ [] aliases [] aliases
  | shown {visiting : List String} {entity : Entity} {alias_ : String} {column : Column}
      {rest : List Column} {aliases later : Aliases} {exprs : List Sql.Expr}
      (ordinary : entity.hop? column = none)
      (others : Expansion schema visiting entity alias_ rest aliases exprs later) :
      Expansion schema visiting entity alias_ (column :: rest) aliases
        (namedColumn alias_ column :: exprs) later
  | skipped {visiting : List String} {entity : Entity} {alias_ : String} {column : Column}
      {rest : List Column} {aliases later : Aliases} {exprs : List Sql.Expr} {relation : Relation}
      (leads : entity.hop? column = some relation)
      (skip : relation.eager = true → relation.entity ∈ visiting)
      (others : Expansion schema visiting entity alias_ rest aliases exprs later) :
      Expansion schema visiting entity alias_ (column :: rest) aliases exprs later
  | opened {visiting : List String} {entity : Entity} {alias_ : String} {column : Column}
      {rest : List Column} {aliases middle later : Aliases} {inner exprs : List Sql.Expr}
      {relation : Relation} {target : Entity}
      (leads : entity.hop? column = some relation) (eager : relation.eager = true)
      (fresh : relation.entity ∉ visiting) (found : schema.lookup relation.entity = some target)
      (inside : Expansion schema (relation.entity :: visiting) target
        (aliases.join entity alias_ column target).1 target.columns
        (aliases.join entity alias_ column target).2 inner middle)
      (others : Expansion schema visiting entity alias_ rest middle exprs later) :
      Expansion schema visiting entity alias_ (column :: rest) aliases (inner ++ exprs) later

variable {schema : Schema}

/-- The expansion of a column whose relation is opened: first that of the target, then that of the
other columns. -/
theorem expandColumns_opened {visiting : List String} {entity target : Entity} {alias_ : String}
    {column : Column} {rest : List Column} {aliases : Aliases} {relation : Relation}
    (leads : entity.hop? column = some relation) (eager : relation.eager = true)
    (fresh : relation.entity ∉ visiting) (found : schema.lookup relation.entity = some target) :
    schema.expandColumns visiting entity alias_ (column :: rest) aliases =
      schema.expandColumns (relation.entity :: visiting) target
          (aliases.join entity alias_ column target).1 target.columns
          (aliases.join entity alias_ column target).2 >>= fun inner =>
        schema.expandColumns visiting entity alias_ rest inner.2 >>= fun others =>
          pure (inner.1 ++ others.1, others.2) := by
  rw [expandColumns, leads]
  simp only [eager, Bool.true_eq_false, if_false, dif_neg fresh]
  split
  · next missing =>
    rw [found] at missing
    cases missing
  · next other foundToo =>
    rw [found] at foundToo
    cases foundToo
    rfl

/-- **What `expandColumns` returns is derived by the rules.** -/
theorem expansion_of_ok {visiting : List String} {entity : Entity} {alias_ : String}
    {columns : List Column} {aliases later : Aliases} {exprs : List Sql.Expr}
    (succeeds : schema.expandColumns visiting entity alias_ columns aliases = .ok (exprs, later)) :
    schema.Expansion visiting entity alias_ columns aliases exprs later := by
  fun_induction Schema.expandColumns schema visiting entity alias_ columns aliases
    generalizing exprs later with
  | case1 visiting entity alias_ aliases =>
      cases succeeds
      exact .done visiting entity alias_ aliases
  | case2 visiting entity alias_ aliases column rest ordinary ih =>
      obtain ⟨⟨others, after⟩, remaining, same⟩ := ok_of_bind succeeds
      cases same
      exact .shown ordinary (ih remaining)
  | case3 visiting entity alias_ aliases column rest relation leads isLazy ih =>
      exact .skipped leads (fun eager => absurd eager (by simp [isLazy])) (ih succeeds)
  | case4 visiting entity alias_ aliases column rest relation leads eager visited ih =>
      exact .skipped leads (fun _ => visited) (ih succeeds)
  | case5 => cases succeeds
  | case6 visiting entity alias_ aliases column rest relation leads eager fresh target found _
      targetAlias joined same ihInside ihOthers =>
      obtain ⟨⟨inner, middle⟩, inside, remaining⟩ := ok_of_bind succeeds
      obtain ⟨⟨others, after⟩, rest_ok, whole⟩ := ok_of_bind remaining
      cases whole
      refine .opened leads (by simpa using eager) fresh found ?_ (ihOthers middle rest_ok)
      rw [same]
      exact ihInside inside

/-- **An expansion keeps the written names.** -/
theorem Expansion.keeps {visiting : List String} {entity : Entity} {alias_ : String}
    {columns : List Column} {aliases later : Aliases} {exprs : List Sql.Expr}
    (expansion : schema.Expansion visiting entity alias_ columns aliases exprs later) :
    aliases.Keeps later := by
  induction expansion with
  | done _ _ _ aliases => exact .refl aliases
  | shown _ _ ih => exact ih
  | skipped _ _ _ ih => exact ih
  | @opened _ entity alias_ column _ aliases _ _ _ _ _ target _ _ _ _ _ _ inner others =>
      exact (aliases.keeps_join entity alias_ column target).trans (inner.trans others)

theorem Expansion.extends {visiting : List String} {entity : Entity} {alias_ : String}
    {columns : List Column} {aliases later : Aliases} {exprs : List Sql.Expr}
    (expansion : schema.Expansion visiting entity alias_ columns aliases exprs later) :
    aliases.Extends later :=
  expansion.keeps.more

/-- The target of every eager relation of these columns is being expanded, or has an occurrence. -/
def Treated (visiting : List String) (entity : Entity) (aliases : Aliases) (columns : List Column) :
    Prop :=
  ∀ column ∈ columns, ∀ relation, entity.hop? column = some relation → relation.eager = true →
    relation.entity ∈ visiting ∨ ∃ alias_, aliases.first? relation.entity = some alias_

theorem treated_nil (visiting : List String) (entity : Entity) (aliases : Aliases) :
    Treated visiting entity aliases [] :=
  fun _ member => nomatch member

/-- Treated columns with one more are treated after the treatment of the latter. -/
theorem Treated.concat {visiting : List String} {entity : Entity} {aliases later : Aliases}
    {columns : List Column} {column : Column} (treated : Treated visiting entity aliases columns)
    (more : aliases.Extends later) (one : Treated visiting entity later [column]) :
    Treated visiting entity later (columns ++ [column]) := by
  intro other member relation leads eager
  rcases List.mem_append.mp member with before | last
  · exact (treated other before relation leads eager).imp id
      fun ⟨alias_, first⟩ => ⟨alias_, Aliases.first?_mono more first⟩
  · exact one other last relation leads eager

/-- The hop along a column after treated ones leaves the table as it is, unless the column is the
first of its property: the first one leads to the same target. -/
theorem hops_of_treated {visiting : List String} {entity target : Entity} {alias_ : String}
    {aliases : Aliases} {before rest : List Column} {column : Column} {relation : Relation}
    (stands : aliases.StandsFor alias_ entity.name)
    (registered : schema.lookup entity.name = some entity)
    (own : entity.columns = before ++ column :: rest)
    (treated : Treated visiting entity aliases before) (leads : entity.hop? column = some relation)
    (eager : relation.eager = true) (fresh : relation.entity ∉ visiting)
    (found : schema.lookup relation.entity = some target) :
    Hops schema aliases (aliases.join entity alias_ column target).2 := by
  cases earlier : before.find? (fun other => other.property == column.property) with
  | none =>
      have named : entity.column? column.property = some column := by
        rw [Entity.column?, own, List.find?_append, earlier]
        simp
      have member : column ∈ entity.columns := Entity.mem_of_column? named
      exact .single (.along ⟨stands, registered, named, member, relation, leads, found⟩)
  | some first =>
      have named : entity.column? column.property = some first := by
        rw [Entity.column?, own, List.find?_append, earlier]
        rfl
      have leadsToo := Entity.hop?_of_column? (wellFormed_of_lookup registered) leads named
      have old := treated first (List.mem_of_find?_eq_some earlier) relation leadsToo eager
      obtain ⟨firstAlias, first⟩ := old.resolve_left fresh
      rw [Aliases.join, schema.name_of_lookup found, first]

/-- **The expansion of an entity of the query takes hops and shows well-typed columns.** -/
theorem Expansion.resolved {visiting : List String} {entity : Entity} {alias_ : String}
    {before columns : List Column} {aliases later : Aliases} {exprs : List Sql.Expr}
    (expansion : schema.Expansion visiting entity alias_ columns aliases exprs later)
    (stands : aliases.StandsFor alias_ entity.name)
    (registered : schema.lookup entity.name = some entity)
    (own : entity.columns = before ++ columns) (treated : Treated visiting entity aliases before) :
    Resolved schema aliases (Sql.Expr.referencesOf exprs) later := by
  induction expansion generalizing before with
  | done _ _ _ aliases => exact .nil aliases
  | @shown visiting entity alias_ column rest aliases later exprs ordinary others ih =>
      have one : Treated visiting entity aliases [column] := by
        intro other member relation leads
        rw [List.mem_singleton.mp member, ordinary] at leads
        cases leads
      have more := ih stands registered (by simpa using own) (treated.concat (.refl aliases) one)
      have member : column ∈ entity.columns := own ▸ List.mem_append_right _ (List.mem_cons_self ..)
      have first : Resolved schema aliases (namedColumn alias_ column).references aliases := by
        refine ⟨.refl, fun reference inside => ?_⟩
        simp only [namedColumn, Sql.Expr.references, List.mem_singleton] at inside
        exact inside ▸ Aliases.hasColumn_of_standsFor stands registered member
      exact first.append more
  | @skipped visiting entity alias_ column rest aliases later exprs relation leads skip _ ih =>
      have one : Treated visiting entity aliases [column] := by
        intro other member otherRelation otherLeads eager
        rw [List.mem_singleton.mp member, leads] at otherLeads
        cases otherLeads
        exact .inl (skip eager)
      exact ih stands registered (by simpa using own) (treated.concat (.refl aliases) one)
  | @opened visiting entity alias_ column rest aliases middle later inner exprs relation
      target leads
      eager fresh found inside _ ihInside ihOthers =>
      have hops := hops_of_treated stands registered own treated leads eager fresh found
      have targetFirst := aliases.first?_join entity alias_ column target
      have targetName := schema.name_of_lookup found
      have opened := ihInside (Aliases.standsFor_of_first? targetFirst) (targetName ▸ found) rfl
        (treated_nil _ target _)
      have one : Treated visiting entity middle [column] := by
        intro other member otherRelation otherLeads _
        rw [List.mem_singleton.mp member, leads] at otherLeads
        cases otherLeads
        exact .inr ⟨_, Aliases.first?_mono inside.extends (targetName ▸ targetFirst)⟩
      have extended : aliases.Extends middle :=
        (aliases.extends_join entity alias_ column target).trans inside.extends
      have more := ihOthers (stands.mono extended) registered (by simpa using own)
        (treated.concat extended one)
      have both := opened.append more
      rw [Sql.Expr.referencesOf_append]
      exact ⟨hops.trans both.hops, both.typed⟩

/-- An entity of the query that is selected in full refers to well-typed columns. -/
theorem expand_resolved {entity : Entity} {alias_ : String} {aliases later : Aliases}
    {exprs : List Sql.Expr} (stands : aliases.StandsFor alias_ entity.name)
    (registered : schema.lookup entity.name = some entity)
    (succeeds : schema.expand entity alias_ aliases = .ok (exprs, later)) :
    Resolved schema aliases (Sql.Expr.referencesOf exprs) later :=
  (expansion_of_ok succeeds).resolved stands registered rfl (treated_nil _ entity aliases)

end Schema

end EntityQuery

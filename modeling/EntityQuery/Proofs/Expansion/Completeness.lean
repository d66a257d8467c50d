import EntityQuery.Mapping.SelectClause
import EntityQuery.Proofs.Expansion.Trail
import EntityQuery.Proofs.Resolution.Expansion
import EntityQuery.Proofs.Sample
import Mathlib

/-!
# Completeness of expansions

An expansion does not enter an entity that is being expanded, and so it follows trails only. Each
entity at the end of a trail is expanded in full somewhere within it, under the alias of its first
occurrence (`ExpandsWithin.along`), and conversely everything that is shown belongs to the entity
itself or to one that eager relations reach (`Expansion.belongs`).

Hence a full selection of a registered entity shows its own ordinary columns, and under first
aliases those of every other entity that its eager relations reach, each once; and it fails only if
one of these relations leads to an unregistered entity (`expand_complete`).
-/

set_option autoImplicit false

namespace EntityQuery

/-! ## Texts of full selections -/

/-- The text of a column in a full selection, as in `t0.name as t0_name`. -/
def Column.shownAs (alias_ : String) (column : Column) : String :=
  alias_ ++ "." ++ column.columnName ++ " as " ++ alias_ ++ "_" ++ column.property

theorem render_namedColumn (alias_ : String) (column : Column) :
    (Schema.namedColumn alias_ column).render = column.shownAs alias_ := by
  simp only [Schema.namedColumn, Sql.Expr.render, Sql.ColumnRef.render, Sql.ColumnRef.of,
    Column.shownAs, String.append_assoc]

/-- The expressions that are kept have the texts of all of them, less those in `seen`. -/
theorem mem_texts_keepFirstFrom {seen : List String} {exprs : List Sql.Expr} {text : String} :
    text ∈ (keepFirstFrom seen exprs).map Sql.Expr.render ↔
      text ∈ exprs.map Sql.Expr.render ∧ text ∉ seen := by
  induction exprs generalizing seen with
  | nil => simp [keepFirstFrom]
  | cons expr rest ih =>
      rw [keepFirstFrom]
      split
      · next old =>
        rw [ih, List.map_cons, List.mem_cons]
        constructor
        · rintro ⟨later, fresh⟩
          exact ⟨.inr later, fresh⟩
        · rintro ⟨rfl | later, fresh⟩
          · exact absurd old fresh
          · exact ⟨later, fresh⟩
      · next new =>
        rw [List.map_cons, List.mem_cons, ih, List.map_cons, List.mem_cons, List.mem_cons]
        constructor
        · rintro (rfl | ⟨later, fresh⟩)
          · exact ⟨.inl rfl, new⟩
          · exact ⟨.inr later, fun old => fresh (.inr old)⟩
        · rintro ⟨rfl | later, fresh⟩
          · exact .inl rfl
          · by_cases same : text = expr.render
            · exact .inl same
            · exact .inr ⟨later, fun either => either.elim same fresh⟩

/-- Dropping repeated fragments keeps every text. -/
theorem mem_texts_keepFirst {exprs : List Sql.Expr} {text : String} :
    text ∈ (keepFirst exprs).map Sql.Expr.render ↔ text ∈ exprs.map Sql.Expr.render := by
  rw [keepFirst, mem_texts_keepFirstFrom]
  simp

namespace Schema

variable {schema : Schema}

/-! ## What an expansion shows -/

/-- An expansion shows the ordinary columns. -/
theorem Expansion.shows {visiting : List String} {entity : Entity} {alias_ : String}
    {columns : List Column} {aliases later : Aliases} {exprs : List Sql.Expr}
    (expansion : schema.Expansion visiting entity alias_ columns aliases exprs later)
    {column : Column} (member : column ∈ columns) (ordinary : entity.hop? column = none) :
    namedColumn alias_ column ∈ exprs := by
  induction expansion with
  | done => cases member
  | shown _ _ ih =>
      rcases List.mem_cons.mp member with rfl | later
      · exact List.mem_cons_self ..
      · exact List.mem_cons_of_mem _ (ih later ordinary)
  | skipped leads _ _ ih =>
      rcases List.mem_cons.mp member with rfl | later
      · rw [leads] at ordinary
        cases ordinary
      · exact ih later ordinary
  | opened leads _ _ _ _ _ _ ihOthers =>
      rcases List.mem_cons.mp member with rfl | later
      · rw [leads] at ordinary
        cases ordinary
      · exact List.mem_append_right _ (ihOthers later ordinary)

/-- An entity is expanded in full under an alias within an expansion that shows `exprs` and ends in
the table `later`, while the entities in `visiting` are being expanded. -/
def ExpandsWithin (schema : Schema) (visiting : List String) (entity : Entity) (alias_ : String)
    (exprs : List Sql.Expr) (later : Aliases) : Prop :=
  ∃ before inner after, schema.Expansion visiting entity alias_ entity.columns before inner after ∧
    inner ⊆ exprs ∧ after.Extends later

theorem ExpandsWithin.mono {visiting : List String} {entity : Entity} {alias_ : String}
    {exprs more : List Sql.Expr} {middle later : Aliases}
    (within : schema.ExpandsWithin visiting entity alias_ exprs middle) (inside : exprs ⊆ more)
    (extended : middle.Extends later) : schema.ExpandsWithin visiting entity alias_ more later := by
  obtain ⟨before, inner, after, expansion, subset, extends_⟩ := within
  exact ⟨before, inner, after, expansion, List.Subset.trans subset inside, extends_.trans extended⟩

theorem ExpandsWithin.shows {visiting : List String} {entity : Entity} {alias_ : String}
    {exprs : List Sql.Expr} {later : Aliases}
    (within : schema.ExpandsWithin visiting entity alias_ exprs later) {column : Column}
    (member : column ∈ entity.columns) (ordinary : entity.hop? column = none) :
    namedColumn alias_ column ∈ exprs := by
  obtain ⟨_, _, _, expansion, subset, _⟩ := within
  exact subset (expansion.shows member ordinary)

/-- An eager relation to an entity that is not being expanded is opened: its target is expanded in
full under the alias of its first occurrence. -/
theorem Expansion.opens {visiting : List String} {entity : Entity} {alias_ : String}
    {columns : List Column} {aliases later : Aliases} {exprs : List Sql.Expr}
    (expansion : schema.Expansion visiting entity alias_ columns aliases exprs later)
    {column : Column} (member : column ∈ columns) {relation : Relation}
    (leads : entity.hop? column = some relation) (eager : relation.eager = true)
    (fresh : relation.entity ∉ visiting) :
    ∃ target targetAlias, schema.lookup relation.entity = some target ∧
      later.first? target.name = some targetAlias ∧
      schema.ExpandsWithin (relation.entity :: visiting) target targetAlias exprs later := by
  induction expansion with
  | done => cases member
  | shown ordinary _ ih =>
      rcases List.mem_cons.mp member with rfl | inRest
      · rw [leads] at ordinary
        cases ordinary
      · obtain ⟨target, targetAlias, found, first, within⟩ := ih inRest leads fresh
        exact ⟨target, targetAlias, found, first, within.mono (List.subset_cons_self _ _) (.refl _)⟩
  | skipped other skip _ ih =>
      rcases List.mem_cons.mp member with rfl | inRest
      · cases other.symm.trans leads
        exact absurd (skip eager) fresh
      · exact ih inRest leads fresh
  | @opened _ entity alias_ _ _ aliases middle _ inner _ _ target other _ _ found inside others _
      ihOthers =>
      rcases List.mem_cons.mp member with rfl | inRest
      · cases other.symm.trans leads
        have first := Aliases.first?_mono (inside.extends.trans others.extends)
          (aliases.first?_join entity alias_ _ target)
        exact ⟨target, _, found, first, _, inner, middle, inside, List.subset_append_left _ _,
          others.extends⟩
      · obtain ⟨target, targetAlias, found, first, within⟩ := ihOthers inRest leads fresh
        exact ⟨target, targetAlias, found, first,
          within.mono (List.subset_append_right _ _) (.refl _)⟩

/-- All the names are those of registered entities. -/
def Registers (schema : Schema) (names : List String) : Prop :=
  ∀ name ∈ names, (schema.lookup name).isSome = true

theorem Registers.cons {names : List String} {name : String} {entity : Entity}
    (registers : schema.Registers names) (found : schema.lookup name = some entity) :
    schema.Registers (name :: names) := by
  intro other member
  rcases List.mem_cons.mp member with rfl | earlier
  · rw [found]
    rfl
  · exact registers other earlier

/-- **The end of a trail is expanded in full.** It stands under the alias of its first occurrence,
unless it is the start of the trail. -/
theorem ExpandsWithin.along {visiting : List String} {entity target : Entity}
    (trail : schema.EagerTrail visiting entity target) {alias_ : String} {exprs : List Sql.Expr}
    {later : Aliases} (within : schema.ExpandsWithin visiting entity alias_ exprs later)
    (registers : schema.Registers visiting) :
    ∃ visited targetAlias, schema.Registers visited ∧
      schema.ExpandsWithin visited target targetAlias exprs later ∧
      (target = entity ∧ targetAlias = alias_ ∨ later.first? target.name = some targetAlias) := by
  induction trail generalizing alias_ exprs later with
  | here visiting entity => exact ⟨visiting, alias_, registers, within, .inl ⟨rfl, rfl⟩⟩
  | @step visiting entity next target step fresh rest ih =>
      -- The trail and the expansion keep the same list, so what the trail may enter is opened.
      obtain ⟨column, member, relation, leads, eager, found⟩ := step
      obtain ⟨before, inner, after, expansion, subset, extended⟩ := within
      have name := schema.name_of_lookup found
      obtain ⟨opened, openedAlias, openedFound, openedFirst, inside⟩ :=
        expansion.opens member leads eager (name ▸ fresh)
      cases found.symm.trans openedFound
      rw [name] at ih
      obtain ⟨visited, targetAlias, visitedRegister, there, place⟩ :=
        ih (inside.mono subset extended) (registers.cons found)
      refine ⟨visited, targetAlias, visitedRegister, there, .inr ?_⟩
      rcases place with ⟨rfl, rfl⟩ | deeper
      · exact Aliases.first?_mono extended openedFirst
      · exact deeper

/-- What an expansion may show while the entities in `visiting` are being expanded: an ordinary
column of the entity under its alias, or one of an entity that eager relations reach from it, under
the alias of the first occurrence of that entity. -/
inductive Belongs (schema : Schema) (visiting : List String) (entity : Entity) (alias_ : String)
    (later : Aliases) : Sql.Expr → Prop where
  | own {column : Column} (member : column ∈ entity.columns)
      (ordinary : entity.hop? column = none) :
      Belongs schema visiting entity alias_ later (namedColumn alias_ column)
  | reached {target : Entity} {targetAlias : String} {column : Column}
      (reachable : Relation.TransGen schema.EagerStep entity target)
      (fresh : target.name ∉ visiting)
      (first : later.first? target.name = some targetAlias)
      (member : column ∈ target.columns) (ordinary : target.hop? column = none) :
      Belongs schema visiting entity alias_ later (namedColumn targetAlias column)

/-- What belongs to the expansion of a target belongs to that of its owner. -/
theorem Belongs.opened {visiting : List String} {owner target : Entity}
    {alias_ targetAlias : String} {middle later : Aliases} {expr : Sql.Expr}
    (step : schema.EagerStep owner target) (fresh : target.name ∉ visiting)
    (extended : middle.Extends later) (first : middle.first? target.name = some targetAlias)
    (belongs : schema.Belongs (target.name :: visiting) target targetAlias middle expr) :
    schema.Belongs visiting owner alias_ later expr := by
  cases belongs with
  | own member ordinary =>
      exact .reached (.single step) fresh (Aliases.first?_mono extended first) member ordinary
  | reached reachable deeper found member ordinary =>
      exact .reached (.head step reachable) (fun old => deeper (List.mem_cons_of_mem _ old))
        (Aliases.first?_mono extended found) member ordinary

/-- **Everything that an expansion shows belongs to it.** -/
theorem Expansion.belongs {visiting : List String} {entity : Entity} {alias_ : String}
    {columns : List Column} {aliases later : Aliases} {exprs : List Sql.Expr}
    (expansion : schema.Expansion visiting entity alias_ columns aliases exprs later)
    (own : columns ⊆ entity.columns) :
    ∀ expr ∈ exprs, schema.Belongs visiting entity alias_ later expr := by
  induction expansion with
  | done => exact fun _ member => nomatch member
  | shown ordinary _ ih =>
      intro expr member
      rcases List.mem_cons.mp member with rfl | inRest
      · exact .own (own (List.mem_cons_self ..)) ordinary
      · exact ih (List.subset_of_cons_subset own) expr inRest
  | skipped _ _ _ ih => exact ih (List.subset_of_cons_subset own)
  | @opened _ entity alias_ column _ aliases _ _ _ _ relation target leads eager fresh found inside
      others ihInside ihOthers =>
      intro expr member
      rcases List.mem_append.mp member with inner | outer
      · have step : schema.EagerStep entity target :=
          ⟨column, own (List.mem_cons_self ..), relation, leads, eager, found⟩
        have first := Aliases.first?_mono inside.extends
          (aliases.first?_join entity alias_ column target)
        have belongs := ihInside (List.Subset.refl _) expr inner
        rw [← schema.name_of_lookup found] at belongs fresh
        exact belongs.opened step fresh others.extends first
      · exact ihOthers (List.subset_of_cons_subset own) expr outer

/-! ## Failure -/

/-- Where all eager relations that can be reached lead to registered entities, an expansion
succeeds. -/
theorem expandColumns_ok {visiting : List String} {entity : Entity} {alias_ : String}
    {columns : List Column} {aliases : Aliases}
    (closed : ∀ owner, Relation.ReflTransGen schema.EagerStep entity owner →
      schema.EagerClosed owner)
    (own : columns ⊆ entity.columns) :
    ∃ result, schema.expandColumns visiting entity alias_ columns aliases = .ok result := by
  fun_induction Schema.expandColumns schema visiting entity alias_ columns aliases with
  | case1 visiting entity alias_ aliases => exact ⟨_, rfl⟩
  | case2 visiting entity alias_ aliases column rest ordinary ih =>
      obtain ⟨result, succeeds⟩ := ih closed (List.subset_of_cons_subset own)
      exact ⟨_, bind_ok succeeds rfl⟩
  | case3 visiting entity alias_ aliases column rest relation leads isLazy ih =>
      exact ih closed (List.subset_of_cons_subset own)
  | case4 visiting entity alias_ aliases column rest relation leads eager visited ih =>
      exact ih closed (List.subset_of_cons_subset own)
  | case5 visiting entity alias_ aliases column rest relation leads eager fresh missing =>
      have known := closed entity .refl column (own (List.mem_cons_self ..)) relation leads
        (by simpa using eager)
      rw [missing] at known
      cases known
  | case6 visiting entity alias_ aliases column rest relation leads eager fresh target found _
      targetAlias joined same ihInside ihOthers =>
      have step : schema.EagerStep entity target :=
        ⟨column, own (List.mem_cons_self ..), relation, leads, by simpa using eager, found⟩
      obtain ⟨⟨inner, middle⟩, inside⟩ := ihInside
        (fun owner reachable => closed owner (.head step reachable)) (List.Subset.refl _)
      obtain ⟨result, others⟩ := ihOthers middle closed (List.subset_of_cons_subset own)
      exact ⟨_, bind_ok inside (bind_ok others rfl)⟩

/-- Every entity that eager relations reach is expanded in full within the expansion of a registered
one. -/
theorem along_of_expand_ok {entity target : Entity} {alias_ : String} {aliases later : Aliases}
    {exprs : List Sql.Expr} (registered : schema.lookup entity.name = some entity)
    (succeeds : schema.expand entity alias_ aliases = .ok (exprs, later))
    (reachable : Relation.ReflTransGen schema.EagerStep entity target) :
    ∃ visited targetAlias, schema.Registers visited ∧
      schema.ExpandsWithin visited target targetAlias exprs later ∧
      (target = entity ∧ targetAlias = alias_ ∨ later.first? target.name = some targetAlias) := by
  have whole : schema.ExpandsWithin [entity.name] entity alias_ exprs later :=
    ⟨aliases, exprs, later, expansion_of_ok succeeds, List.Subset.refl _, .refl later⟩
  have none_before : schema.Registers [] := fun _ member => nomatch member
  exact whole.along (eagerTrail_of_reachable registered reachable) (none_before.cons registered)

/-- Where an expansion succeeds, all eager relations that can be reached lead to registered
entities. -/
theorem closed_of_expand_ok {entity : Entity} {alias_ : String} {aliases later : Aliases}
    {exprs : List Sql.Expr} (registered : schema.lookup entity.name = some entity)
    (succeeds : schema.expand entity alias_ aliases = .ok (exprs, later)) {owner : Entity}
    (reachable : Relation.ReflTransGen schema.EagerStep entity owner) :
    schema.EagerClosed owner := by
  obtain ⟨visited, _, registers, within, _⟩ := along_of_expand_ok registered succeeds reachable
  intro column member relation leads eager
  by_cases fresh : relation.entity ∈ visited
  · exact registers relation.entity fresh
  · obtain ⟨_, _, _, expansion, _, _⟩ := within
    obtain ⟨target, _, found, _, _⟩ := expansion.opens member leads eager fresh
    rw [found]
    rfl

/-! ## Full selections -/

/-- What the selection of an entity in full under an alias has to be, given the fragments of the
expansion and the alias table after it. -/
structure FullSelection (schema : Schema) (entity : Entity) (alias_ : String)
    (exprs : List Sql.Expr) (later : Aliases) : Prop where
  /-- No fragment is shown twice. -/
  distinct : ((keepFirst exprs).map Sql.Expr.render).Nodup
  /-- Every other entity that eager relations reach has an alias. -/
  bound : ∀ target, Relation.TransGen schema.EagerStep entity target → target ≠ entity →
    (later.first? target.name).isSome = true
  /-- The fragments are the entity's own ordinary columns, and those of the other entities that
  eager relations reach under their first aliases. -/
  fragments : ∀ text, text ∈ (keepFirst exprs).map Sql.Expr.render ↔
    (∃ column ∈ entity.columns, entity.hop? column = none ∧ text = column.shownAs alias_) ∨
      ∃ target targetAlias, Relation.TransGen schema.EagerStep entity target ∧ target ≠ entity ∧
        later.first? target.name = some targetAlias ∧
        ∃ column ∈ target.columns, target.hop? column = none ∧ text = column.shownAs targetAlias

/-- Every other entity that eager relations reach has the alias of a first occurrence, under which
all its ordinary columns are shown. -/
theorem reached_of_expand_ok {entity target : Entity} {alias_ : String} {aliases later : Aliases}
    {exprs : List Sql.Expr} (registered : schema.lookup entity.name = some entity)
    (succeeds : schema.expand entity alias_ aliases = .ok (exprs, later))
    (reachable : Relation.TransGen schema.EagerStep entity target) (other : target ≠ entity) :
    ∃ targetAlias, later.first? target.name = some targetAlias ∧
      ∀ column ∈ target.columns, target.hop? column = none →
        namedColumn targetAlias column ∈ exprs := by
  obtain ⟨_, targetAlias, _, within, start | first⟩ :=
    along_of_expand_ok registered succeeds reachable.to_reflTransGen
  · exact absurd start.1 other
  · exact ⟨targetAlias, first, fun _ member ordinary => within.shows member ordinary⟩

theorem fullSelection_of_expand_ok {entity : Entity} {alias_ : String} {aliases later : Aliases}
    {exprs : List Sql.Expr} (registered : schema.lookup entity.name = some entity)
    (succeeds : schema.expand entity alias_ aliases = .ok (exprs, later)) :
    schema.FullSelection entity alias_ exprs later where
  distinct := keepFirst_nodup exprs
  bound target reachable other := by
    obtain ⟨targetAlias, first, _⟩ := reached_of_expand_ok registered succeeds reachable other
    rw [first]
    rfl
  fragments text := by
    have expansion := expansion_of_ok succeeds
    rw [mem_texts_keepFirst, List.mem_map]
    constructor
    · rintro ⟨expr, shown, rfl⟩
      cases expansion.belongs (List.Subset.refl _) expr shown with
      | @own column member ordinary =>
          exact .inl ⟨column, member, ordinary, render_namedColumn alias_ column⟩
      | @reached target targetAlias column reachable fresh first member ordinary =>
          have other : target ≠ entity := fun same => fresh (same ▸ List.mem_singleton_self _)
          exact .inr ⟨target, targetAlias, reachable, other, first, column, member, ordinary,
            render_namedColumn targetAlias column⟩
    · rintro (⟨column, member, ordinary, rfl⟩ |
        ⟨target, targetAlias, reachable, other, first, column, member, ordinary, rfl⟩)
      · exact ⟨_, expansion.shows member ordinary, render_namedColumn alias_ column⟩
      · obtain ⟨found, foundFirst, shows⟩ :=
          reached_of_expand_ok registered succeeds reachable other
        cases first.symm.trans foundFirst
        exact ⟨_, shows column member ordinary, render_namedColumn targetAlias column⟩

/-- **Eager expansion is complete, sound and free of duplicates.** It succeeds if and only if every
eager relation that can be reached from the entity along eager relations names a registered entity.
-/
theorem expand_complete (schema : Schema) (entity : Entity) (alias_ : String) (aliases : Aliases)
    (registered : schema.lookup entity.name = some entity) :
    ((∃ exprs later, schema.expand entity alias_ aliases = .ok (exprs, later)) ↔
        ∀ owner, Relation.ReflTransGen schema.EagerStep entity owner → schema.EagerClosed owner) ∧
      ∀ exprs later, schema.expand entity alias_ aliases = .ok (exprs, later) →
        schema.FullSelection entity alias_ exprs later := by
  refine ⟨⟨?_, fun closed => ?_⟩, fun exprs later => fullSelection_of_expand_ok registered⟩
  · rintro ⟨exprs, later, succeeds⟩ owner reachable
    exact closed_of_expand_ok registered succeeds reachable
  · obtain ⟨⟨exprs, later⟩, succeeds⟩ := expandColumns_ok closed (List.Subset.refl entity.columns)
    exact ⟨exprs, later, succeeds⟩

/-- A shop is shown with its area, and the way back from the area to a shop is not taken. -/
theorem expand_complete_shop :
    Sample.schema.lookup "Shop" = some Sample.shop ∧
      ∃ exprs later,
        Sample.schema.expand Sample.shop "t0" (Aliases.empty.bind "Shop" none).2 =
            .ok (exprs, later) ∧
          (keepFirst exprs).map Sql.Expr.render =
            ["t0.id as t0_id", "t1.id as t1_id", "t1.name as t1_name"] ∧
          Sample.schema.FullSelection Sample.shop "t0" exprs later := by
  have registered : Sample.schema.lookup "Shop" = some Sample.shop := by decide
  have shown : (Sample.schema.expand Sample.shop "t0"
      (Aliases.empty.bind "Shop" none).2).toOption.map
      (fun result => (keepFirst result.1).map Sql.Expr.render) =
        some ["t0.id as t0_id", "t1.id as t1_id", "t1.name as t1_name"] := by
    cbv
  obtain ⟨⟨exprs, later⟩, succeeds, texts⟩ := exists_ok_of_shown shown
  have whole := (expand_complete Sample.schema Sample.shop "t0" _ registered).2 exprs later succeeds
  exact ⟨registered, exprs, later, succeeds, texts, whole⟩

end Schema

end EntityQuery

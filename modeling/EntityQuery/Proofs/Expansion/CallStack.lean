import EntityQuery.Proofs.Resolution.Expansion
import Mathlib.Data.List.Perm.Subperm
import Mathlib.Logic.Relation

/-!
# The calls of an expansion

An expansion as a machine with a stack of calls. Each call goes through the columns of its entity.
An eager relation to an entity that is not being expanded is a call on its target, which adds the
name of the target to those being expanded; a call that is through with its columns returns, and
takes the latest name away.

The open calls of every state are nested (`Nested`): inside the outermost one they are on registered
entities, none of them on an entity that was being expanded, and their names are the ones added so
far. So there are never more of them than registered entities (`Nested.length_le`), and after the
outermost one has returned the names are those at its start.

The machine does what `expandColumns` does (`Expansion.runs`, `fails_of_error`), and it is a
function from states to states. So it has no infinite run (`acc_of_runs`), and `expand_terminates`
says all of this of the expansion of an entity.
-/

set_option autoImplicit false

namespace EntityQuery

/-- A call that has not returned: the entity that it expands, under an alias, and the columns to
come. -/
structure Call where
  entity : Entity
  alias_ : String
  columns : List Column

/-- A state of an expansion. -/
structure Expanding where
  /-- The open calls, the innermost first. -/
  calls : List Call
  /-- The names of the entities that are being expanded, the latest first. -/
  visiting : List String
  aliases : Aliases
  /-- The fragments so far. -/
  exprs : List Sql.Expr

namespace Expanding

/-- The state with a call on an entity under an alias. -/
def call (state : Expanding) (entity : Entity) (alias_ : String) : Expanding :=
  { state with
    calls := ⟨entity, alias_, entity.columns⟩ :: state.calls
    visiting := entity.name :: state.visiting }

/-- The state before the expansion of an entity under an alias, while the entities in `visiting` are
being expanded. -/
def start (visiting : List String) (entity : Entity) (alias_ : String) (aliases : Aliases) :
    Expanding :=
  call ⟨[], visiting, aliases, []⟩ entity alias_

/-- What the innermost call does next, if there is one: it returns, or treats its next column. -/
def step (schema : Schema) : Expanding → Except MappingError (Option Expanding)
  | ⟨[], _, _, _⟩ => .ok none
  | ⟨⟨_, _, []⟩ :: outer, visiting, aliases, exprs⟩ =>
    .ok (some ⟨outer, visiting.tail, aliases, exprs⟩)
  | ⟨⟨entity, alias_, column :: rest⟩ :: outer, visiting, aliases, exprs⟩ =>
    match entity.hop? column with
    | none =>
      .ok (some
        ⟨⟨entity, alias_, rest⟩ :: outer, visiting, aliases,
          exprs ++ [Schema.namedColumn alias_ column]⟩)
    | some relation =>
      if relation.eager = false ∨ relation.entity ∈ visiting then
        .ok (some ⟨⟨entity, alias_, rest⟩ :: outer, visiting, aliases, exprs⟩)
      else do
        let target ← schema.entity relation.entity
        let (targetAlias, aliases) := aliases.join entity alias_ column target
        return some
          (call ⟨⟨entity, alias_, rest⟩ :: outer, visiting, aliases, exprs⟩ target targetAlias)

variable {schema : Schema}

/-- One step from a state to the next. -/
def Step (schema : Schema) (state next : Expanding) : Prop :=
  step schema state = .ok (some next)

/-- Steps one after another. -/
abbrev Runs (schema : Schema) : Expanding → Expanding → Prop :=
  Relation.ReflTransGen (Step schema)

/-- The run ends in this state: no step follows. -/
def Halts (schema : Schema) (state : Expanding) : Prop :=
  ∀ next, ¬ Step schema state next

/-! ## Steps -/

/-- A step is a return, the treatment of a column within the innermost call, or a call on an entity
that is registered and not being expanded. -/
inductive Move (schema : Schema) : Expanding → Expanding → Prop where
  | returns (call : Call) (outer : List Call) (visiting : List String) (aliases : Aliases)
      (exprs : List Sql.Expr) :
      Move schema ⟨call :: outer, visiting, aliases, exprs⟩ ⟨outer, visiting.tail, aliases, exprs⟩
  | treats (entity : Entity) (alias_ : String) (column : Column) (rest : List Column)
      (outer : List Call) (visiting : List String) (aliases : Aliases)
      (exprs more : List Sql.Expr) :
      Move schema ⟨⟨entity, alias_, column :: rest⟩ :: outer, visiting, aliases, exprs⟩
        ⟨⟨entity, alias_, rest⟩ :: outer, visiting, aliases, more⟩
  | calls (entity : Entity) (alias_ : String) (column : Column) (rest : List Column)
      (outer : List Call) (visiting : List String) (aliases later : Aliases) (exprs : List Sql.Expr)
      {target : Entity} (targetAlias : String)
      (registered : schema.lookup target.name = some target)
      (fresh : target.name ∉ visiting) :
      Move schema ⟨⟨entity, alias_, column :: rest⟩ :: outer, visiting, aliases, exprs⟩
        (call ⟨⟨entity, alias_, rest⟩ :: outer, visiting, later, exprs⟩ target targetAlias)

theorem Step.move {state next : Expanding} (one : Step schema state next) :
    Move schema state next := by
  obtain ⟨calls, visiting, aliases, exprs⟩ := state
  rw [Step] at one
  match calls with
  | [] => cases one
  | ⟨_, _, []⟩ :: outer =>
      cases one
      exact .returns _ outer visiting aliases exprs
  | ⟨entity, alias_, column :: rest⟩ :: outer =>
      rw [step] at one
      split at one
      · cases one
        exact .treats entity alias_ column rest outer visiting aliases exprs _
      · next relation leads =>
        split at one
        · cases one
          exact .treats entity alias_ column rest outer visiting aliases exprs exprs
        · next open_ =>
          obtain ⟨target, found, same⟩ := ok_of_bind one
          cases same
          obtain ⟨name, registered⟩ := Registry.registered_of_entity found
          refine .calls entity alias_ column rest outer visiting aliases _ exprs _ registered ?_
          exact name ▸ fun visited => open_ (.inr visited)

section InnermostCall

variable {entity : Entity} {column : Column} {visiting : List String} {relation : Relation}
  (alias_ : String) (rest : List Column) (outer : List Call) (aliases : Aliases)
  (exprs : List Sql.Expr)

/-- A return takes the latest name away. -/
theorem step_returns (name : String) :
    Step schema ⟨⟨entity, alias_, []⟩ :: outer, name :: visiting, aliases, exprs⟩
      ⟨outer, visiting, aliases, exprs⟩ :=
  rfl

theorem step_shows (ordinary : entity.hop? column = none) :
    Step schema ⟨⟨entity, alias_, column :: rest⟩ :: outer, visiting, aliases, exprs⟩
      ⟨⟨entity, alias_, rest⟩ :: outer, visiting, aliases,
        exprs ++ [Schema.namedColumn alias_ column]⟩ := by
  simp only [Step, step, ordinary]

theorem step_skips (leads : entity.hop? column = some relation)
    (closed : relation.eager = false ∨ relation.entity ∈ visiting) :
    Step schema ⟨⟨entity, alias_, column :: rest⟩ :: outer, visiting, aliases, exprs⟩
      ⟨⟨entity, alias_, rest⟩ :: outer, visiting, aliases, exprs⟩ := by
  simp only [Step, step, leads, if_pos closed]

/-- An eager relation to an entity that is not being expanded is a call on its target. -/
theorem step_calls {target : Entity} (leads : entity.hop? column = some relation)
    (eager : relation.eager = true) (fresh : relation.entity ∉ visiting)
    (found : schema.lookup relation.entity = some target) :
    Step schema ⟨⟨entity, alias_, column :: rest⟩ :: outer, visiting, aliases, exprs⟩
      ⟨⟨target, (aliases.join entity alias_ column target).1, target.columns⟩ ::
          ⟨entity, alias_, rest⟩ :: outer,
        relation.entity :: visiting, (aliases.join entity alias_ column target).2, exprs⟩ := by
  have open_ : ¬ (relation.eager = false ∨ relation.entity ∈ visiting) := by simp [eager, fresh]
  have known : schema.entity relation.entity = .ok target := by rw [Registry.entity, found]
  simp only [Step, step, leads, if_neg open_]
  rw [known, ← schema.name_of_lookup found]
  rfl

theorem step_fails (leads : entity.hop? column = some relation) (eager : relation.eager = true)
    (fresh : relation.entity ∉ visiting) (missing : schema.lookup relation.entity = none) :
    step schema ⟨⟨entity, alias_, column :: rest⟩ :: outer, visiting, aliases, exprs⟩ =
      .error (.unknownEntity relation.entity) := by
  have open_ : ¬ (relation.eager = false ∨ relation.entity ∈ visiting) := by simp [eager, fresh]
  simp only [step, leads, if_neg open_, Registry.entity, missing]
  rfl

end InnermostCall

/-- The state after a step is determined. -/
theorem Step.eq {state first second : Expanding} (one : Step schema state first)
    (other : Step schema state second) : first = second := by
  rw [Step, one] at other
  exact Option.some.inj (Except.ok.inj other)

theorem halts_of_returned {state : Expanding} (returned : state.calls = []) :
    Halts schema state := by
  obtain ⟨calls, _, _, _⟩ := state
  cases returned
  exact fun next one => nomatch one

theorem halts_of_error {state : Expanding} {problem : MappingError}
    (failed : step schema state = .error problem) : Halts schema state := by
  intro next one
  rw [Step, failed] at one
  cases one

/-! ## Runs that end -/

/-- Every run leads on to the state in which one of them ends. -/
theorem runs_to_last {start state last : Expanding} (reached : Runs schema start state)
    (runs : Runs schema start last) (halts : Halts schema last) : Runs schema state last := by
  induction reached using Relation.ReflTransGen.head_induction_on with
  | refl => exact runs
  | head one _ ih =>
      rcases runs.cases_head with same | ⟨next, other, rest⟩
      · exact absurd (same ▸ one) (halts _)
      · exact ih (one.eq other ▸ rest)

/-- From a state with a run that ends there is no infinite run. -/
theorem acc_of_runs {state last : Expanding} (runs : Runs schema state last)
    (halts : Halts schema last) : Acc (fun next state => Step schema state next) state := by
  induction runs using Relation.ReflTransGen.head_induction_on with
  | refl => exact Acc.intro last fun next one => absurd one (halts next)
  | head one _ ih => exact Acc.intro _ fun next other => one.eq other ▸ ih

/-! ## Nested calls -/

/-- The names of the entities of calls. -/
def names (calls : List Call) : List String :=
  calls.map fun call => call.entity.name

/-- Calls inside each other, the outermost on `entity` while the entities in `entry` were being
expanded: each inner one is on a registered entity that is not being expanded outside of it. -/
inductive Nested (schema : Schema) (entry : List String) (entity : Entity) : List Call → Prop where
  | returned : Nested schema entry entity []
  | outermost (alias_ : String) (columns : List Column) :
      Nested schema entry entity [⟨entity, alias_, columns⟩]
  | inner {call : Call} {outer : List Call}
      (registered : schema.lookup call.entity.name = some call.entity)
      (fresh : call.entity.name ∉ names outer ++ entry)
      (nested : Nested schema entry entity outer) :
      Nested schema entry entity (call :: outer)

variable {entry : List String} {entity : Entity}

theorem Nested.outer {call : Call} {outer : List Call}
    (nested : Nested schema entry entity (call :: outer)) : Nested schema entry entity outer := by
  cases nested with
  | outermost => exact .returned
  | inner _ _ nested => exact nested

/-- The columns to come of the innermost call do not matter. -/
theorem Nested.columns {expanded : Entity} {alias_ : String} {columns : List Column}
    {outer : List Call} (nested : Nested schema entry entity (⟨expanded, alias_, columns⟩ :: outer))
    (others : List Column) : Nested schema entry entity (⟨expanded, alias_, others⟩ :: outer) := by
  cases nested with
  | outermost => exact .outermost alias_ others
  | inner registered fresh nested => exact .inner registered fresh nested

/-- No entity is being expanded twice. -/
theorem Nested.nodup {calls : List Call} (nested : Nested schema entry entity calls) :
    (names calls).Nodup := by
  induction nested with
  | returned => exact List.nodup_nil
  | outermost => exact List.nodup_singleton _
  | inner _ fresh _ ih =>
      exact List.nodup_cons.mpr ⟨fun member => fresh (List.mem_append_left _ member), ih⟩

/-- The calls are on registered entities and on the outermost one. -/
theorem Nested.names_subset {calls : List Call} (nested : Nested schema entry entity calls) :
    names calls ⊆ entity.name :: schema.entities.map Entity.name := by
  induction nested with
  | returned => exact List.nil_subset _
  | outermost => exact List.cons_subset_cons _ (List.nil_subset _)
  | inner registered _ _ ih =>
      refine List.cons_subset.mpr ⟨List.mem_cons_of_mem _ ?_, ih⟩
      exact List.mem_map_of_mem (Schema.mem_of_lookup registered)

theorem length_le_of_names_subset {calls : List Call} (nested : Nested schema entry entity calls)
    {bound : List String} (inside : names calls ⊆ bound) : calls.length ≤ bound.length := by
  have shorter := (List.subperm_of_subset nested.nodup inside).length_le
  rwa [names, List.length_map] at shorter

/-- **There are no more open calls than registered entities,** not counting the outermost one if it
is on an entity that is not registered. -/
theorem Nested.length_le {calls : List Call} (nested : Nested schema entry entity calls) :
    calls.length ≤ schema.size + 1 ∧
      (schema.lookup entity.name = some entity → calls.length ≤ schema.size) := by
  constructor
  · simpa [Schema.size] using length_le_of_names_subset nested nested.names_subset
  · intro registered
    have known : entity.name ∈ schema.entities.map Entity.name :=
      List.mem_map_of_mem (Schema.mem_of_lookup registered)
    have inside : names calls ⊆ schema.entities.map Entity.name :=
      List.Subset.trans nested.names_subset (List.cons_subset.mpr ⟨known, List.Subset.refl _⟩)
    simpa [Schema.size] using length_le_of_names_subset nested inside

/-- What holds of every state of an expansion: the open calls are nested, and the entities being
expanded are theirs and those of the start. -/
structure Orderly (schema : Schema) (entry : List String) (entity : Entity)
    (state : Expanding) : Prop where
  nested : Nested schema entry entity state.calls
  visiting : state.visiting = names state.calls ++ entry

theorem orderly_start (alias_ : String) (aliases : Aliases) :
    Orderly schema entry entity (start entry entity alias_ aliases) :=
  ⟨.outermost alias_ entity.columns, rfl⟩

/-- **A step keeps the calls nested and their names in step with them.** -/
theorem Orderly.step {state next : Expanding} (orderly : Orderly schema entry entity state)
    (one : Step schema state next) : Orderly schema entry entity next := by
  obtain ⟨nested, visiting⟩ := orderly
  cases one.move with
  | returns =>
      rw [names] at visiting
      exact ⟨nested.outer, congrArg List.tail visiting⟩
  | treats => exact ⟨nested.columns _, visiting⟩
  | calls _ _ _ rest _ _ _ _ _ _ registered fresh =>
      dsimp only at visiting
      rw [visiting] at fresh
      exact ⟨.inner registered fresh (nested.columns rest), congrArg _ visiting⟩

theorem Orderly.runs {state next : Expanding} (orderly : Orderly schema entry entity state)
    (runs : Runs schema state next) : Orderly schema entry entity next := by
  induction runs with
  | refl => exact orderly
  | tail _ one ih => exact ih.step one

end Expanding

/-! ## The machine and the expansion -/

namespace Schema

open Expanding (Step Runs Halts)

variable {schema : Schema}

/-- **The innermost call goes through its columns as the expansion does,** whatever the calls around
it. -/
theorem Expansion.runs {visiting : List String} {entity : Entity} {alias_ : String}
    {columns : List Column} {aliases later : Aliases} {exprs : List Sql.Expr}
    (expansion : schema.Expansion visiting entity alias_ columns aliases exprs later)
    (outer : List Call) (shown : List Sql.Expr) :
    Runs schema ⟨⟨entity, alias_, columns⟩ :: outer, visiting, aliases, shown⟩
      ⟨⟨entity, alias_, []⟩ :: outer, visiting, later, shown ++ exprs⟩ := by
  induction expansion generalizing outer shown with
  | done =>
      rw [List.append_nil]
  | @shown _ _ alias_ column rest aliases _ _ ordinary _ ih =>
      have others := ih outer (shown ++ [namedColumn alias_ column])
      rw [List.append_assoc, List.singleton_append] at others
      exact .head (Expanding.step_shows alias_ rest outer aliases shown ordinary) others
  | @skipped _ _ alias_ _ rest aliases _ _ _ leads skip _ ih =>
      have closed := (Bool.eq_false_or_eq_true _).symm.imp id skip
      exact .head (Expanding.step_skips alias_ rest outer aliases shown leads closed)
        (ih outer shown)
  | @opened _ entity alias_ _ rest aliases middle _ inner _ relation target leads eager
      fresh found _ _
      ihInside ihOthers =>
      have others := ihOthers outer (shown ++ inner)
      rw [List.append_assoc] at others
      have calls := Expanding.step_calls alias_ rest outer aliases shown leads eager fresh found
      have inside := ihInside (⟨entity, alias_, rest⟩ :: outer) shown
      exact .head calls (inside.trans (.head (Expanding.step_returns ..) others))

/-- **Where an expansion fails, the machine runs into the same error.** -/
theorem fails_of_error {visiting : List String} {entity : Entity} {alias_ : String}
    {columns : List Column} {aliases : Aliases} {problem : MappingError}
    (failed : schema.expandColumns visiting entity alias_ columns aliases = .error problem)
    (outer : List Call) (shown : List Sql.Expr) :
    ∃ state, Runs schema ⟨⟨entity, alias_, columns⟩ :: outer, visiting, aliases, shown⟩ state ∧
      Expanding.step schema state = .error problem := by
  fun_induction Schema.expandColumns schema visiting entity alias_ columns aliases
    generalizing outer shown with
  | case1 => cases failed
  | case2 visiting entity alias_ aliases column rest ordinary ih =>
      rcases error_of_bind failed with inRest | ⟨_, _, impossible⟩
      · obtain ⟨state, runs, fails⟩ := ih inRest outer (shown ++ [namedColumn alias_ column])
        exact ⟨state, .head (Expanding.step_shows alias_ rest outer aliases shown ordinary)
          runs, fails⟩
      · cases impossible
  | case3 visiting entity alias_ aliases column rest relation leads isLazy ih =>
      obtain ⟨state, runs, fails⟩ := ih failed outer shown
      refine ⟨state, .head ?_ runs, fails⟩
      exact Expanding.step_skips alias_ rest outer aliases shown leads (.inl isLazy)
  | case4 visiting entity alias_ aliases column rest relation leads _ visited ih =>
      obtain ⟨state, runs, fails⟩ := ih failed outer shown
      refine ⟨state, .head ?_ runs, fails⟩
      exact Expanding.step_skips alias_ rest outer aliases shown leads (.inr visited)
  | case5 visiting entity alias_ aliases column rest relation leads eager fresh missing =>
      cases failed
      have isEager : relation.eager = true := by simpa using eager
      exact ⟨_, .refl,
        Expanding.step_fails alias_ rest outer aliases shown leads isEager fresh missing⟩
  | case6 visiting entity alias_ aliases column rest relation leads eager fresh target found _
      targetAlias joined same ihInside ihOthers =>
      have isEager : relation.eager = true := by simpa using eager
      have calls := Expanding.step_calls alias_ rest outer aliases shown leads isEager fresh found
      rw [same] at calls
      rcases error_of_bind failed with inTarget | ⟨⟨inner, middle⟩, inside, after⟩
      · obtain ⟨state, runs, fails⟩ := ihInside inTarget (⟨entity, alias_, rest⟩ :: outer) shown
        exact ⟨state, .head calls runs, fails⟩
      · rcases error_of_bind after with inRest | ⟨_, _, impossible⟩
        · obtain ⟨state, runs, fails⟩ := ihOthers middle inRest outer (shown ++ inner)
          have whole := (expansion_of_ok inside).runs (⟨entity, alias_, rest⟩ :: outer) shown
          exact ⟨state, .head calls (whole.trans (.head (Expanding.step_returns ..) runs)), fails⟩
        · cases impossible

/-! ## Termination -/

/-- The last state of a run is that of a result, after the first call has returned, or fails with an
error. -/
structure LastOf (schema : Schema) (visiting : List String)
    (outcome : Except MappingError (List Sql.Expr × Aliases)) (last : Expanding) : Prop where
  ok : ∀ exprs later, outcome = .ok (exprs, later) ↔ last = ⟨[], visiting, later, exprs⟩
  error : ∀ problem, outcome = .error problem ↔ Expanding.step schema last = .error problem

/-- What the expansion of an entity under an alias has to do while the entities in `visiting` are
being expanded: end, after calls on registered entities only, which are nested at most as deep as
there are such entities, and with the entities being expanded as they were. -/
structure ExpansionTerminates (schema : Schema) (visiting : List String) (entity : Entity)
    (alias_ : String) (aliases : Aliases) : Prop where
  /-- There is no infinite run. -/
  finite : Acc (fun next state => Step schema state next) (.start visiting entity alias_ aliases)
  /-- Every call is on a registered entity that is not being expanded. -/
  calls : ∀ state next, Runs schema (.start visiting entity alias_ aliases) state →
    Step schema state next → state.calls.length < next.calls.length →
    ∃ target targetAlias, schema.lookup target.name = some target ∧ target.name ∉ state.visiting ∧
      next.calls = ⟨target, targetAlias, target.columns⟩ :: next.calls.tail ∧
      next.visiting = target.name :: state.visiting
  /-- Besides the first call there are never more open calls than registered entities, and with it
  never more if it is on a registered entity. -/
  depth : ∀ state, Runs schema (.start visiting entity alias_ aliases) state →
    state.calls.length ≤ schema.size + 1 ∧
      (schema.lookup entity.name = some entity → state.calls.length ≤ schema.size)
  /-- The entities being expanded are those of the open calls and those at the start. -/
  restored : ∀ state, Runs schema (.start visiting entity alias_ aliases) state →
    state.visiting = Expanding.names state.calls ++ visiting
  /-- Every run leads on to one last state, which has what the expansion returns. -/
  result : ∃ last, Halts schema last ∧
    (∀ state, Runs schema (.start visiting entity alias_ aliases) state → Runs schema state last) ∧
    schema.LastOf visiting
      (schema.expandColumns (entity.name :: visiting) entity alias_ entity.columns aliases) last

/-- The run of an expansion ends with its result, or with its error. -/
theorem exists_last (schema : Schema) (visiting : List String) (entity : Entity) (alias_ : String)
    (aliases : Aliases) :
    ∃ last, Halts schema last ∧ Runs schema (.start visiting entity alias_ aliases) last ∧
      schema.LastOf visiting
        (schema.expandColumns (entity.name :: visiting) entity alias_ entity.columns aliases)
          last := by
  cases outcome :
      schema.expandColumns (entity.name :: visiting) entity alias_ entity.columns aliases with
  | ok result =>
      obtain ⟨exprs, later⟩ := result
      have runs := (expansion_of_ok outcome).runs [] []
      refine ⟨⟨[], visiting, later, exprs⟩, Expanding.halts_of_returned rfl,
        runs.tail (Expanding.step_returns ..), ⟨fun others after => ?_, fun problem => ?_⟩⟩
      · simp [and_comm]
      · simp [Expanding.step]
  | error problem =>
      obtain ⟨last, runs, fails⟩ := fails_of_error outcome [] []
      refine ⟨last, Expanding.halts_of_error fails, runs, ⟨fun exprs later => ?_, fun other => ?_⟩⟩
      · refine ⟨fun impossible => (nomatch impossible), fun returned => ?_⟩
        rw [returned] at fails
        cases fails
      · rw [fails]
        simp

/-- **Eager expansion terminates on every schema,** whatever the cycles of its eager relations. -/
theorem expand_terminates (schema : Schema) (visiting : List String) (entity : Entity)
    (alias_ : String) (aliases : Aliases) :
    schema.ExpansionTerminates visiting entity alias_ aliases := by
  have orderly : ∀ {state}, Runs schema (.start visiting entity alias_ aliases) state →
      Expanding.Orderly schema visiting entity state :=
    (Expanding.orderly_start alias_ aliases).runs
  obtain ⟨last, halts, runs, outcome⟩ := exists_last schema visiting entity alias_ aliases
  exact
    { finite := Expanding.acc_of_runs runs halts
      calls := by
        intro state next _ one deeper
        cases one.move with
        | returns =>
            dsimp only [List.length_cons] at deeper
            omega
        | treats => exact absurd deeper (Nat.lt_irrefl _)
        | calls _ _ _ _ _ _ _ _ _ targetAlias registered fresh =>
            exact ⟨_, targetAlias, registered, fresh, rfl, rfl⟩
      depth := fun state reached => (orderly reached).nested.length_le
      restored := fun state reached => (orderly reached).visiting
      result := ⟨last, halts, fun _ reached => Expanding.runs_to_last reached runs halts, outcome⟩ }

end Schema

end EntityQuery

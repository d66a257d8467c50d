import EntityQuery.Schema.Store
import EntityQuery.Proofs.Outcome
import Mathlib.Data.List.Perm.Basic

/-!
# Stores and schemas

A store represents a schema if names stand for the same entities in both (`Represents`). Then they
have the same names, and as many entities. The main statements are `unchanged_of_register`, a store
in which an entity cannot be registered is the one before, and that registering an entity or reading
a document does to a store what it does to the schema (`Represents.register` and
`agree_ofDocument`).
-/

set_option autoImplicit false

namespace EntityQuery

namespace Schema

theorem names_perm (schema : Schema) : schema.names.Perm (schema.entities.map Entity.name) :=
  List.mergeSort_perm _ _

theorem pairwise_le_names (schema : Schema) : schema.names.Pairwise (· ≤ ·) := by
  have sorted := @List.pairwise_mergeSort String (fun first second => decide (first ≤ second))
    (by simpa using fun first second third => String.le_trans) (by simpa using String.le_total)
    (schema.entities.map Entity.name)
  simpa only [decide_eq_true_eq, names] using sorted

theorem nodup_names (schema : Schema) : schema.names.Nodup :=
  schema.names_perm.nodup_iff.mpr schema.distinct

/-- A name is listed if it stands for an entity. -/
theorem mem_names_iff {schema : Schema} {name : String} :
    name ∈ schema.names ↔ (schema.lookup name).isSome = true := by
  rw [schema.names_perm.mem_iff, List.mem_map, ← Option.ne_none_iff_isSome, Ne, lookup_eq_none_iff]
  push Not
  rfl

end Schema

namespace EntityStore

variable {store : EntityStore} {schema : Schema} {entity : Entity}

/-- In the store a name stands for what it stands for in the schema. -/
def Represents (store : EntityStore) (schema : Schema) : Prop :=
  ∀ name, store.lookup name = schema.lookup name

theorem represents_empty : empty.Represents .empty :=
  fun _ => rfl

/-! ## What is represented -/

theorem nodup_names (store : EntityStore) : store.names.Nodup :=
  store.entities.nodup_keys

/-- A name is listed if it stands for an entity. -/
theorem mem_names_iff {name : String} : name ∈ store.names ↔ (store.lookup name).isSome = true := by
  constructor
  · exact Dictionary.isSome_find?_of_mem_keys
  · intro bound
    obtain ⟨entity, found⟩ := Option.isSome_iff_exists.mp bound
    exact Dictionary.mem_keys_of_find? found

/-- The names of a store are those of the schema, in the same order. -/
theorem Represents.names_eq (same : store.Represents schema) : store.names = schema.names := by
  have perm : store.names.Perm schema.names :=
    (List.perm_ext_iff_of_nodup store.nodup_names schema.nodup_names).mpr fun name => by
      rw [mem_names_iff, Schema.mem_names_iff, same]
  have ascending : store.names.Pairwise (· ≤ ·) :=
    List.pairwise_map.mpr (store.entities.ascending.imp Std.le_of_lt)
  exact perm.eq_of_pairwise (fun _ _ _ _ => String.le_antisymm) ascending schema.pairwise_le_names

theorem Represents.size_eq (same : store.Represents schema) : store.size = schema.size := by
  have lengths := congrArg List.length same.names_eq
  rwa [schema.names_perm.length_eq, names, Dictionary.keys, List.length_map,
    List.length_map] at lengths

theorem Represents.isEmpty_eq (same : store.Represents schema) :
    store.isEmpty = schema.isEmpty := by
  have sizes := same.size_eq
  unfold size Schema.size at sizes
  rw [isEmpty, Schema.isEmpty, Bool.eq_iff_iff, List.isEmpty_iff, List.isEmpty_iff,
    ← List.length_eq_zero_iff, ← List.length_eq_zero_iff, sizes]

/-! ## Registering -/

theorem change_bind {α β : Type} (store : EntityStore) (first : Change α) (next : α → Change β) :
    store.change (first >>= next) =
      match store.change first with
      | (.error problem, later) => (.error problem, later)
      | (.ok value, later) => later.change (next value) := by
  unfold change
  rw [ExceptT.run_bind, StateT.run_bind]
  change StateT.run _ ((first.run.run store).2) = _
  rcases first.run.run store with ⟨_ | _, later⟩
  · rfl
  · rfl

theorem changed_bind (store : EntityStore) (first next : Change Unit) :
    store.changed (first >>= fun _ => next) =
      store.changed first >>= fun later => later.changed next := by
  unfold changed
  rw [change_bind]
  rcases store.change first with ⟨_ | _, later⟩
  · rfl
  · rfl

theorem change_register (store : EntityStore) (entity : Entity) :
    store.change (register entity) =
      match entity.validate with
      | .error problem => (.error problem, store)
      | .ok () =>
        if (store.lookup entity.name).isSome then (.error (.duplicateEntity entity.name), store)
        else (.ok (), { store with entities := store.entities.insert entity.name entity }) := by
  unfold register
  rw [change_bind]
  cases entity.validate with
  | error problem => rfl
  | ok =>
      change store.change (get >>= _) = _
      rw [change_bind]
      change store.change (if (store.lookup entity.name).isSome = true then _ else _) = _
      by_cases taken : (store.lookup entity.name).isSome = true
      · rw [if_pos taken, change_bind]
        exact (if_pos taken).symm
      · rw [if_neg taken]
        exact (if_neg taken).symm

/-- **A store in which an entity cannot be registered is the one before.** -/
theorem unchanged_of_register {problem : SchemaError}
    (refused : (store.change (register entity)).1 = .error problem) :
    (store.change (register entity)).2 = store := by
  rw [change_register] at refused ⊢
  cases valid : entity.validate with
  | error other => rfl
  | ok =>
      by_cases taken : (store.lookup entity.name).isSome = true
      · simp only [if_pos taken]
      · simp [valid, taken] at refused

/-- A store and a schema after the same: both are refused for the same reason, or neither is and the
store represents the schema. -/
inductive Agree {ε : Type} : Except ε EntityStore → Except ε Schema → Prop
  | error (problem : ε) : Agree (.error problem) (.error problem)
  | ok {store : EntityStore} {schema : Schema} (same : store.Represents schema) :
      Agree (.ok store) (.ok schema)

theorem Agree.mapError {ε δ : Type} {outcome : Except ε EntityStore} {expected : Except ε Schema}
    (agree : Agree outcome expected) (rename : ε → δ) :
    Agree (outcome.mapError rename) (expected.mapError rename) := by
  cases agree with
  | error problem => exact .error _
  | ok same => exact .ok same

theorem Agree.bind {ε : Type} {outcome : Except ε EntityStore} {expected : Except ε Schema}
    {next : EntityStore → Except ε EntityStore} {nextToo : Schema → Except ε Schema}
    (agree : Agree outcome expected)
    (step : ∀ store schema, Represents store schema → Agree (next store) (nextToo schema)) :
    Agree (outcome >>= next) (expected >>= nextToo) := by
  cases agree with
  | error problem => exact .error problem
  | ok same => exact step _ _ same

/-- **An entity is registered in a store as in the schema that it represents.** -/
theorem Represents.register (same : store.Represents schema) (entity : Entity) :
    Agree (store.changed (register entity)) (schema.register entity) := by
  unfold changed
  rw [change_register, same]
  cases outcome : schema.register entity with
  | ok later =>
      obtain ⟨ordered, free, _⟩ := Schema.register_eq_ok_iff.mp outcome
      rw [Entity.validate_eq_ok_iff.mpr ordered, free]
      refine .ok fun name => ?_
      rw [Schema.lookup_register name outcome, ← same name]
      exact Dictionary.find?_insert store.entities entity.name name entity
  | error problem =>
      unfold Schema.register at outcome
      split at outcome
      · next other fails =>
        cases outcome
        rw [fails]
        exact .error problem
      · next passes =>
        split at outcome
        · next taken =>
          cases outcome
          rw [passes, taken]
          exact .error _
        · cases outcome

theorem Represents.registerAll (same : store.Represents schema) (entities : List Entity) :
    Agree (store.changed (registerAll entities)) (schema.registerAll entities) := by
  induction entities generalizing store schema with
  | nil => exact .ok same
  | cons entity rest ih =>
      rw [Schema.registerAll, List.foldlM_cons]
      change Agree
        (store.changed (EntityStore.register entity >>= fun _ => EntityStore.registerAll rest)) _
      rw [changed_bind]
      exact (same.register entity).bind fun _ _ later => ih later

/-- **The store of a document represents its schema.** -/
theorem agree_ofDocument (text : String) : Agree (ofDocument text) (Schema.ofDocument text) := by
  unfold ofDocument Schema.ofDocument
  cases Json.readDocument (Json.Decoder.list Entity.decoder) text with
  | error fault => exact .error _
  | ok entities => exact (represents_empty.registerAll entities).mapError _

end EntityStore

end EntityQuery

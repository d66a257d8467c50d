import Mathlib.Data.List.Perm.Basic
import EntityQuery.Schema.Document
import EntityQuery.Proofs.LooseKeys.Schema
import EntityQuery.Proofs.Outcome
import EntityQuery.Proofs.Schema.Stores
import EntityQuery.Proofs.Schema.Validation

/-!
# Registration

A schema is built by calls: an entity is registered in it, or in a copy that takes its place, or a
document takes its place. A call that fails is answered with its problem and changes nothing.

What a schema holds after any calls is what was registered: the entities of the calls that were
answered with success, from the latest document on (`registered`). The main statements are
`entities_after`, by induction on the calls, `EntityStore.Represents.run`, a store that the calls
change in place answers as the schema, and `registration_laws`, which reads off them what names
stand for, which names there are, and how the next call is answered.
-/

set_option autoImplicit false

namespace EntityQuery

namespace Schema

/-! ## Registering one entity, and several -/

/-- Why an entity is refused where others are registered: a problem of its own comes before a name
that is taken. -/
inductive Refuses (entities : List Entity) (entity : Entity) : SchemaError → Prop
  | faulty {problem : SchemaError}
      (faulty : entity.Faulty problem) : Refuses entities entity problem
  | taken (valid : entity.Valid) (taken : ∃ other ∈ entities, other.name = entity.name) :
      Refuses entities entity (.duplicateEntity entity.name)

theorem free_iff {schema : Schema} {name : String} :
    schema.lookup name = none ↔ ¬ ∃ other ∈ schema.entities, other.name = name := by
  rw [lookup_eq_none_iff]
  push Not
  rfl

theorem register_eq_error_iff {schema : Schema} {entity : Entity} {problem : SchemaError} :
    schema.register entity = .error problem ↔ Refuses schema.entities entity problem := by
  have valid_of : entity.validate = .ok () → entity.Valid := fun passes =>
    Entity.valid_iff_wellFormed.mpr (Entity.validate_eq_ok_iff.mp passes)
  unfold register
  split
  · next other fails =>
    have faulty := Entity.validate_eq_error_iff.mp fails
    constructor
    · rintro ⟨⟩
      exact .faulty faulty
    · intro refused
      cases refused with
      | faulty faultyToo => rw [faulty.unique faultyToo]
      | taken valid => exact absurd valid faulty.not_valid
  · next passes =>
    have sound : ∀ other, ¬ entity.Faulty other :=
      fun other faulty => faulty.not_valid (valid_of passes)
    split
    · next found =>
      have taken : ∃ other ∈ schema.entities, other.name = entity.name := by
        by_contra free
        rw [free_iff.mpr free] at found
        cases found
      constructor
      · rintro ⟨⟩
        exact .taken (valid_of passes) taken
      · intro refused
        cases refused with
        | faulty faulty => exact absurd faulty (sound _)
        | taken => rfl
    · next free =>
      constructor
      · rintro ⟨⟩
      · intro refused
        cases refused with
        | faulty faulty => exact absurd faulty (sound _)
        | taken valid taken => exact absurd taken (free_iff.mp (by simpa using free))

/-- Entities that can all be registered: they are valid and their names are distinct. -/
structure Registrable (entities : List Entity) : Prop where
  valid : ∀ entity ∈ entities, entity.Valid
  distinct : (entities.map Entity.name).Nodup

theorem registrable (schema : Schema) : Registrable schema.entities where
  valid entity member := Entity.valid_iff_wellFormed.mpr (schema.wellFormed entity member)
  distinct := schema.distinct

theorem Registrable.perm {entities others : List Entity} (registrable : Registrable entities)
    (same : entities.Perm others) : Registrable others where
  valid entity member := registrable.valid entity (same.mem_iff.mpr member)
  distinct := (same.map Entity.name).nodup_iff.mp registrable.distinct

theorem entities_of_registerAll {schema later : Schema} {entities : List Entity}
    (registered : schema.registerAll entities = .ok later) :
    later.entities = schema.entities ++ entities := by
  induction entities generalizing schema with
  | nil =>
      cases registered
      simp
  | cons entity rest ih =>
      rw [registerAll, List.foldlM_cons] at registered
      obtain ⟨middle, first, others⟩ := ok_of_bind registered
      rw [ih others, (register_eq_ok_iff.mp first).2.2, List.append_assoc]
      rfl

/-- **Entities are registered in a new schema if they are valid and their names are distinct.** -/
theorem registerAll_eq_ok_iff {later : Schema} {entities : List Entity} :
    empty.registerAll entities = .ok later ↔ Registrable entities ∧ later.entities = entities := by
  constructor
  · intro registered
    have same : later.entities = entities := entities_of_registerAll registered
    exact ⟨same ▸ later.registrable, same⟩
  · rintro ⟨_, rfl⟩
    exact registerAll_entities later

/-- Registrable entities are those of a schema. -/
def ofEntities {entities : List Entity} (registrable : Registrable entities) : Schema where
  entities := entities
  distinct := registrable.distinct
  wellFormed entity member := Entity.valid_iff_wellFormed.mp (registrable.valid entity member)

/-- The first entity that cannot be registered after those before it is refused. -/
theorem refuses_of_registerAll {schema : Schema} {entities : List Entity} {problem : SchemaError}
    (fails : schema.registerAll entities = .error problem) :
    ∃ before entity after, entities = before ++ entity :: after ∧
      Registrable (schema.entities ++ before) ∧
      Refuses (schema.entities ++ before) entity problem := by
  induction entities generalizing schema with
  | nil => cases fails
  | cons entity rest ih =>
      rw [registerAll, List.foldlM_cons] at fails
      rcases error_of_bind fails with first | ⟨middle, first, others⟩
      · refine ⟨[], entity, rest, rfl, ?_⟩
        rw [List.append_nil]
        exact ⟨schema.registrable, register_eq_error_iff.mp first⟩
      · obtain ⟨before, refused, after, whole, registrable, refuses⟩ := ih others
        have entities := (register_eq_ok_iff.mp first).2.2
        rw [entities, List.append_assoc] at registrable refuses
        exact ⟨entity :: before, refused, after, by rw [whole]; rfl, registrable, refuses⟩

/-! ## Documents -/

/-- The entities that a document lists. -/
def Lists (text : String) (entities : List Entity) : Prop :=
  Json.readDocument (Json.Decoder.list Entity.decoder) text = .ok entities

theorem Lists.ofDocument_eq {text : String} {entities : List Entity} (lists : Lists text entities) :
    ofDocument text = (empty.registerAll entities).mapError .schema := by
  unfold Lists at lists
  rw [ofDocument, lists]

theorem ofDocument_eq_ok_iff {text : String} {schema : Schema} :
    ofDocument text = .ok schema ↔ Lists text schema.entities := by
  constructor
  · intro succeeds
    unfold ofDocument at succeeds
    split at succeeds
    · cases succeeds
    · next entities reads =>
      rw [(registerAll_eq_ok_iff.mp (ok_of_mapError succeeds)).2]
      exact reads
  · intro lists
    rw [lists.ofDocument_eq, registerAll_entities]
    rfl

/-- The second document holds the array of the first with its items in another order. -/
def Reordered (text other : String) : Prop :=
  ∃ items others, Json.Node.ofText text = (.array items true, true) ∧
    Json.Node.ofText other = (.array others true, true) ∧ items.Perm others

theorem Lists.reordered {text other : String} {entities : List Entity} (lists : Lists text entities)
    (same : Reordered text other) : ∃ others, Lists other others ∧ entities.Perm others := by
  obtain ⟨items, others, read, readToo, perm⟩ := same
  unfold Lists Json.readDocument at lists
  rw [read] at lists
  obtain ⟨values, decoded, whole⟩ := ok_of_bind lists
  cases whole
  obtain ⟨results, mapped, whole⟩ := ok_of_bind decoded
  cases whole
  obtain ⟨later, mappedToo, permToo⟩ := List.perm_comp_forall₂ perm.symm (mapM_eq_ok_iff.mp mapped)
  refine ⟨later, ?_, permToo.symm⟩
  unfold Lists Json.readDocument
  rw [readToo]
  exact bind_ok (bind_ok (mapM_eq_ok_iff.mpr mappedToo) rfl) rfl

/-! ## What a schema holds -/

theorem lookup_eq_some_iff {schema : Schema} {name : String} {entity : Entity} :
    schema.lookup name = some entity ↔ entity ∈ schema.entities ∧ entity.name = name := by
  refine ⟨fun found => ⟨mem_of_lookup found, schema.name_of_lookup found⟩, ?_⟩
  rintro ⟨member, rfl⟩
  exact lookup_of_mem member

/-- Schemas with the same entities in another order cannot be told apart. -/
theorem same_of_perm {schema other : Schema} (same : schema.entities.Perm other.entities) :
    (∀ name, other.lookup name = schema.lookup name) ∧ other.names = schema.names := by
  constructor
  · intro name
    ext entity
    rw [lookup_eq_some_iff, lookup_eq_some_iff, same.mem_iff]
  · refine List.Perm.eq_of_pairwise (fun first second _ _ => String.le_antisymm)
      other.pairwise_le_names
      schema.pairwise_le_names ?_
    exact other.names_perm.trans ((same.map Entity.name).symm.trans schema.names_perm.symm)

/-- What a schema holds if these entities were registered. -/
structure Holds (entities : List Entity) (schema : Schema) : Prop where
  /-- What a name stands for has that name, and passes validation. -/
  stored : ∀ name entity, schema.lookup name = some entity →
    entity.name = name ∧ entity.validate = .ok () ∧ entity.Valid
  /-- A name stands for the first entity that was registered under it. -/
  first : ∀ name entity, schema.lookup name = some entity ↔
    IsFirst (fun other => other.name = name) entities entity
  /-- The names ascend strictly in the order of octets. -/
  ascending : schema.names.Pairwise fun earlier later => utf8Octets earlier < utf8Octets later
  names : ∀ name, name ∈ schema.names ↔ ∃ entity ∈ entities, entity.name = name
  size : schema.size = schema.names.length

/-- A schema holds what its entities say. -/
theorem holds_entities (schema : Schema) : Holds schema.entities schema where
  stored name entity found :=
    have ordered := wellFormed_of_lookup found
    ⟨schema.name_of_lookup found, Entity.validate_eq_ok_iff.mpr ordered,
      Entity.valid_iff_wellFormed.mpr ordered⟩
  first name entity := by
    simp only [lookup_eq_find?, find?_eq_some_iff_isFirst, beq_iff_eq]
  ascending := by
    have distinct : schema.names.Nodup := schema.names_perm.nodup_iff.mpr schema.distinct
    refine (schema.pairwise_le_names.and distinct).imp ?_
    rintro earlier later ⟨before, differs⟩
    exact utf8Octets_lt_iff.mpr (Std.lt_of_le_of_ne before differs)
  names name := by rw [schema.names_perm.mem_iff, List.mem_map]
  size := by rw [schema.names_perm.length_eq, List.length_map, size]

/-! ## Calls -/

/-- A call that builds a schema. -/
inductive Call where
  | register (entity : Entity)
  /-- A copy in which the entity is registered takes the place of the schema. -/
  | with_ (entity : Entity)
  /-- The schema of a document takes the place of the schema. -/
  | document (text : String)

/-- The answer to a call: nothing, or its problem. -/
abbrev Answer := Except SchemaDocumentError Unit

namespace Call

/-- The entity that a call registers. -/
def entity? : Call → Option Entity
  | .register entity | .with_ entity => some entity
  | .document _ => none

/-- The schema that a call gives. -/
def outcome (schema : Schema) : Call → Except SchemaDocumentError Schema
  | .register entity | .with_ entity => (schema.register entity).mapError .schema
  | .document text => ofDocument text

/-- The answer to a call. -/
def answer (schema : Schema) (call : Call) : Answer :=
  (call.outcome schema).map fun _ => ()

/-- The schema after a call, the same if the call fails. -/
def after (schema : Schema) (call : Call) : Schema :=
  (call.outcome schema).toOption.getD schema

end Call

/-- The schema after calls, from a new one on. -/
def after (calls : List Call) : Schema :=
  calls.foldl Call.after empty

/-- The answers to calls. -/
def answers (schema : Schema) : List Call → List Answer
  | [] => []
  | call :: rest => call.answer schema :: answers (call.after schema) rest

/-- The entities that were registered, with those of one more call if it was answered with success.
-/
def record (before : List Entity) : Call × Answer → List Entity
  | (_, .error _) => before
  | (.register entity, .ok ()) | (.with_ entity, .ok ()) => before ++ [entity]
  | (.document text, .ok ()) =>
    (Json.readDocument (Json.Decoder.list Entity.decoder) text).toOption.getD []

/-- The entities registered by calls, as the answers to them have it. -/
def registered (calls : List Call) : List Entity :=
  (calls.zip (answers empty calls)).foldl record []

/-- **A call changes a schema as its answer says.** -/
theorem entities_call (schema : Schema) (call : Call) :
    (call.after schema).entities = record schema.entities (call, call.answer schema) := by
  unfold Call.after Call.answer
  cases outcome : call.outcome schema with
  | error problem => cases call <;> rfl
  | ok later =>
      cases call with
      | register entity => exact (register_eq_ok_iff.mp (ok_of_mapError outcome)).2.2
      | with_ entity => exact (register_eq_ok_iff.mp (ok_of_mapError outcome)).2.2
      | document text =>
          have lists := ofDocument_eq_ok_iff.mp outcome
          unfold Lists at lists
          simp only [Except.toOption, Option.getD_some, Except.map, record, lists]

/-- **The entities of a schema after calls are those that were registered.** -/
theorem entities_after (calls : List Call) : (after calls).entities = registered calls := by
  have recorded : ∀ schema : Schema, (calls.foldl Call.after schema).entities =
      (calls.zip (answers schema calls)).foldl record schema.entities := by
    induction calls with
    | nil => exact fun _ => rfl
    | cons call rest ih =>
        intro schema
        rw [List.foldl_cons, ih, answers, List.zip_cons_cons, List.foldl_cons, entities_call]
  exact recorded empty

theorem after_concat (calls : List Call) (call : Call) :
    after (calls ++ [call]) = call.after (after calls) :=
  List.foldl_append

theorem answers_concat (schema : Schema) (calls : List Call) (call : Call) :
    answers schema (calls ++ [call]) =
      answers schema calls ++ [call.answer (calls.foldl Call.after schema)] := by
  induction calls generalizing schema with
  | nil => rfl
  | cons first rest ih => exact congrArg _ (ih _)

theorem Call.outcome_of_entity? {schema : Schema} {call : Call} {entity : Entity}
    (given : call.entity? = some entity) :
    call.outcome schema = (schema.register entity).mapError .schema := by
  cases call <;> cases given <;> rfl

theorem Call.answer_eq_ok_iff {schema : Schema} {call : Call} :
    call.answer schema = .ok () ↔ ∃ later, call.outcome schema = .ok later := by
  unfold Call.answer
  cases call.outcome schema with
  | error problem => simp [Except.map]
  | ok later => simp [Except.map]

theorem Call.answer_eq_error_iff {schema : Schema} {call : Call} {problem : SchemaDocumentError} :
    call.answer schema = .error problem ↔ call.outcome schema = .error problem := by
  unfold Call.answer
  cases call.outcome schema with
  | error other => simp [Except.map]
  | ok later => simp [Except.map]

/-- An entity is registered if it is not refused. -/
theorem exists_register_iff {schema : Schema} {entity : Entity} :
    (∃ later, schema.register entity = .ok later) ↔
      entity.Valid ∧ ¬ ∃ other ∈ schema.entities, other.name = entity.name := by
  constructor
  · rintro ⟨later, registered⟩
    obtain ⟨ordered, free, _⟩ := register_eq_ok_iff.mp registered
    exact ⟨Entity.valid_iff_wellFormed.mpr ordered, free_iff.mp free⟩
  · rintro ⟨valid, free⟩
    cases outcome : schema.register entity with
    | ok later => exact ⟨later, rfl⟩
    | error problem =>
        cases register_eq_error_iff.mp outcome with
        | faulty faulty => exact absurd valid faulty.not_valid
        | taken _ taken => exact absurd taken free

/-- **A document gives a schema if it lists valid entities with distinct names.** -/
theorem exists_ofDocument_iff {text : String} :
    (∃ schema, ofDocument text = .ok schema) ↔
      ∃ entities, Lists text entities ∧ Registrable entities := by
  constructor
  · rintro ⟨schema, succeeds⟩
    exact ⟨schema.entities, ofDocument_eq_ok_iff.mp succeeds, schema.registrable⟩
  · rintro ⟨entities, lists, registrable⟩
    exact ⟨ofEntities registrable, ofDocument_eq_ok_iff.mpr lists⟩

theorem refuses_of_ofDocument {text : String} {reason : SchemaError}
    (fails : ofDocument text = .error (.schema reason)) :
    ∃ before entity rest, Lists text (before ++ entity :: rest) ∧ Registrable before ∧
      Refuses before entity reason := by
  unfold ofDocument at fails
  split at fails
  · cases fails
  · next entities lists =>
    have refused : empty.registerAll entities = .error reason := by
      cases outcome : empty.registerAll entities with
      | error other =>
          rw [outcome] at fails
          cases fails
          rfl
      | ok later =>
          rw [outcome] at fails
          cases fails
    obtain ⟨before, entity, rest, rfl, registrable, refuses⟩ := refuses_of_registerAll refused
    exact ⟨before, entity, rest, lists, registrable, refuses⟩

end Schema

/-! ## Calls on a store -/

namespace EntityStore

variable {store : EntityStore} {schema : Schema}

/-- The store of an outcome takes the place of the store, which stays if there is none. -/
def replacedBy (store : EntityStore) :
    Except SchemaDocumentError EntityStore → Schema.Answer × EntityStore
  | .error problem => (.error problem, store)
  | .ok later => (.ok (), later)

/-- The answer to a call, and the store after it. An entity is registered in place. -/
def perform (store : EntityStore) : Schema.Call → Schema.Answer × EntityStore
  | .register entity =>
    let (outcome, later) := store.change (register entity)
    (outcome.mapError .schema, later)
  | .with_ entity => store.replacedBy ((store.with_ entity).mapError .schema)
  | .document text => store.replacedBy (ofDocument text)

/-- The answers to calls, and the store after them. -/
def run (store : EntityStore) : List Schema.Call → List Schema.Answer × EntityStore
  | [] => ([], store)
  | call :: rest =>
    let (answer, later) := store.perform call
    let (answers, last) := later.run rest
    (answer :: answers, last)

/-- **To register an entity in place is to put a copy with it in the place of the store.** -/
theorem perform_register (store : EntityStore) (entity : Entity) :
    store.perform (.register entity) = store.perform (.with_ entity) := by
  simp only [perform, with_, changed]
  cases outcome : store.change (register entity) with
  | mk result later =>
      cases result with
      | error problem =>
          have same : later = store := by
            simpa only [outcome] using unchanged_of_register (congrArg Prod.fst outcome)
          rw [same]
          rfl
      | ok => rfl

/-- **A call that fails leaves the store as it was.** -/
theorem unchanged_of_perform {call : Schema.Call} {problem : SchemaDocumentError}
    (fails : (store.perform call).1 = .error problem) : (store.perform call).2 = store := by
  have replaced : ∃ outcome, store.perform call = store.replacedBy outcome := by
    cases call with
    | register entity => exact ⟨_, store.perform_register entity⟩
    | with_ entity => exact ⟨_, rfl⟩
    | document text => exact ⟨_, rfl⟩
  obtain ⟨outcome, performed⟩ := replaced
  rw [performed] at fails ⊢
  cases outcome with
  | error other => rfl
  | ok later => cases fails

/-- **A store answers a call as the schema that it represents**, and represents what the schema is
after it. -/
theorem Represents.perform (same : store.Represents schema) (call : Schema.Call) :
    (store.perform call).1 = call.answer schema ∧
      (store.perform call).2.Represents (call.after schema) := by
  have agree : ∃ outcome, store.perform call = store.replacedBy outcome ∧
      Agree outcome (call.outcome schema) := by
    cases call with
    | register entity => exact ⟨_, store.perform_register entity, (same.register entity).mapError _⟩
    | with_ entity => exact ⟨_, rfl, (same.register entity).mapError _⟩
    | document text => exact ⟨_, rfl, agree_ofDocument text⟩
  obtain ⟨outcome, performed, agree⟩ := agree
  rw [performed, Schema.Call.answer, Schema.Call.after]
  generalize call.outcome schema = expected at agree ⊢
  cases agree with
  | error problem => exact ⟨rfl, same⟩
  | ok later => exact ⟨rfl, later⟩

/-- **A store answers calls as the schema that it represents.** -/
theorem Represents.run (same : store.Represents schema) (calls : List Schema.Call) :
    (store.run calls).1 = Schema.answers schema calls ∧
      (store.run calls).2.Represents (calls.foldl Schema.Call.after schema) := by
  induction calls generalizing store schema with
  | nil => exact ⟨rfl, same⟩
  | cons call rest ih =>
      obtain ⟨answered, later⟩ := same.perform call
      obtain ⟨others, last⟩ := ih later
      exact ⟨congrArg₂ _ answered others, last⟩

/-- What a store has answered and holds if the calls were performed on it. -/
structure Performs (calls : List Schema.Call)
    (result : List Schema.Answer × EntityStore) : Prop where
  answers : result.1 = Schema.answers .empty calls
  lookup : ∀ name, result.2.lookup name = (Schema.after calls).lookup name
  names : result.2.names = (Schema.after calls).names
  size : result.2.size = (Schema.after calls).size
  isEmpty : result.2.isEmpty = (Schema.after calls).isEmpty
  /-- A call that fails leaves the store as it is. -/
  unchanged : ∀ (call : Schema.Call) (problem : SchemaDocumentError),
    (result.2.perform call).1 = .error problem → (result.2.perform call).2 = result.2

theorem performs_run (calls : List Schema.Call) : Performs calls (empty.run calls) :=
  have ⟨answered, same⟩ := represents_empty.run calls
  { answers := answered
    lookup := same
    names := same.names_eq
    size := same.size_eq
    isEmpty := same.isEmpty_eq
    unchanged := fun _ _ fails => unchanged_of_perform fails }

end EntityStore

namespace Schema

/-- What is known of a schema after calls. -/
structure RegistrationLaws (calls : List Call) : Prop where
  holds : Holds (registered calls) (after calls)
  /-- A store on which the calls are performed gives the answers and holds the same. -/
  performed : EntityStore.Performs calls (EntityStore.empty.run calls)
  /-- One more call is answered from the schema after the others. -/
  next : ∀ call, answers empty (calls ++ [call]) =
    answers empty calls ++ [call.answer (after calls)]
  /-- An entity is accepted if it is valid and its name is free. -/
  accepted : ∀ (entity : Entity) (call : Call), call.entity? = some entity →
    (call.answer (after calls) = .ok () ↔
      entity.Valid ∧ ¬ ∃ other ∈ registered calls, other.name = entity.name)
  refused : ∀ (entity : Entity) (call : Call), call.entity? = some entity →
    ∀ problem : SchemaDocumentError, call.answer (after calls) = .error problem ↔
      ∃ reason, problem = .schema reason ∧ Refuses (registered calls) entity reason
  /-- A document is accepted if it lists valid entities with distinct names. -/
  listed : ∀ text, (Call.document text).answer (after calls) = .ok () ↔
    ∃ entities, Lists text entities ∧ Registrable entities
  /-- A document with an entity that cannot be registered is refused for the first one. -/
  unlisted : ∀ text reason, (Call.document text).answer (after calls) = .error (.schema reason) →
    ∃ before entity rest, Lists text (before ++ entity :: rest) ∧ Registrable before ∧
      Refuses before entity reason
  /-- A call that fails changes neither what names stand for nor which there are. -/
  failed : ∀ (call : Call) (problem : SchemaDocumentError),
    call.answer (after calls) = .error problem →
    (∀ name, (after (calls ++ [call])).lookup name = (after calls).lookup name) ∧
      (after (calls ++ [call])).names = (after calls).names
  /-- The order in which a document lists its entities makes no difference. -/
  reordered : ∀ text other schema, ofDocument text = .ok schema → Reordered text other →
    ∃ later, ofDocument other = .ok later ∧ (∀ name, later.lookup name = schema.lookup name) ∧
      later.names = schema.names

/-- **The laws of registration hold after any calls**, successful or not. -/
theorem registration_laws (calls : List Call) : RegistrationLaws calls where
  holds := by
    rw [← entities_after]
    exact (after calls).holds_entities
  performed := EntityStore.performs_run calls
  next call := answers_concat empty calls call
  accepted entity call given := by
    rw [Call.answer_eq_ok_iff, Call.outcome_of_entity? given, ← entities_after,
      ← exists_register_iff]
    cases (after calls).register entity with
    | error problem => simp [Except.mapError]
    | ok later => simp [Except.mapError]
  refused entity call given problem := by
    simp only [← entities_after, ← register_eq_error_iff]
    rw [Call.answer_eq_error_iff, Call.outcome_of_entity? given]
    cases (after calls).register entity with
    | error reason => simp [Except.mapError, eq_comm]
    | ok later => simp [Except.mapError]
  listed text := Call.answer_eq_ok_iff.trans exists_ofDocument_iff
  unlisted text reason fails := refuses_of_ofDocument (Call.answer_eq_error_iff.mp fails)
  failed call problem fails := by
    have unchanged : after (calls ++ [call]) = after calls := by
      rw [after_concat, Call.after, Call.answer_eq_error_iff.mp fails]
      rfl
    rw [unchanged]
    exact ⟨fun _ => rfl, rfl⟩
  reordered text other schema succeeds moved := by
    obtain ⟨others, listed, perm⟩ := (ofDocument_eq_ok_iff.mp succeeds).reordered moved
    let later := ofEntities (schema.registrable.perm perm)
    have same : schema.entities.Perm later.entities := perm
    exact ⟨later, ofDocument_eq_ok_iff.mpr listed, same_of_perm same⟩

end Schema

end EntityQuery

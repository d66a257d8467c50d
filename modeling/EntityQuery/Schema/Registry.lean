import EntityQuery.Schema.Entity

/-!
# Schemas

The entities that queries and mutations may name. A registry resolves names to entities; a schema
is a registry that is built by registering entities one after another. It holds only entities in
order, and no two of one name. The main statements are `register_eq_ok_iff`, which entities can be
registered, and `lookup_register`, what a name stands for afterwards.
-/

set_option autoImplicit false

namespace EntityQuery

/-- Resolves names to the entities of these names. -/
structure Registry where
  /-- The entity of a name. -/
  lookup : String → Option Entity
  name_of_lookup : ∀ {name : String} {entity : Entity}, lookup name = some entity →
    entity.name = name

/-- Entities in order under distinct names, in the order of their registration. -/
structure Schema extends Registry where
  entities : List Entity
  lookup := fun name => entities.find? fun entity => entity.name == name
  lookup_eq_find? : ∀ name, lookup name = entities.find? (fun entity => entity.name == name) := by
    exact fun _ => rfl
  name_of_lookup := fun found => by
    rw [lookup_eq_find?] at found
    simpa using List.find?_some found
  distinct : (entities.map Entity.name).Nodup
  wellFormed : ∀ entity ∈ entities, entity.WellFormed

instance : Coe Schema Registry := ⟨Schema.toRegistry⟩

namespace Schema

/-- The schema without entities. -/
def empty : Schema where
  entities := []
  distinct := List.nodup_nil
  wellFormed _ member := nomatch member

instance : Inhabited Schema := ⟨empty⟩

/-- A schema is known by its entities. -/
theorem eq_of_entities {schema other : Schema} (same : schema.entities = other.entities) :
    schema = other := by
  have lookups : schema.lookup = other.lookup := by
    funext name
    rw [schema.lookup_eq_find?, other.lookup_eq_find?, same]
  rcases schema with ⟨⟨_, _⟩, _, _, _, _⟩
  rcases other with ⟨⟨_, _⟩, _, _, _, _⟩
  cases lookups
  cases same
  rfl

theorem mem_of_lookup {schema : Schema} {name : String} {entity : Entity}
    (found : schema.lookup name = some entity) : entity ∈ schema.entities := by
  rw [schema.lookup_eq_find?] at found
  exact List.mem_of_find?_eq_some found

theorem wellFormed_of_lookup {schema : Schema} {name : String} {entity : Entity}
    (found : schema.lookup name = some entity) : entity.WellFormed :=
  schema.wellFormed entity (mem_of_lookup found)

/-- An entity of the schema is the entity of its name. -/
theorem lookup_of_mem {schema : Schema} {entity : Entity} (member : entity ∈ schema.entities) :
    schema.lookup entity.name = some entity := by
  obtain ⟨before, after, whole⟩ := List.append_of_mem member
  have distinct := schema.distinct
  rw [whole, List.map_append, List.map_cons, List.nodup_append] at distinct
  have earlier : before.find? (fun other => other.name == entity.name) = none := by
    simp only [List.find?_eq_none, beq_iff_eq]
    exact fun other memBefore =>
      distinct.2.2 other.name (List.mem_map_of_mem memBefore) entity.name List.mem_cons_self
  simp [schema.lookup_eq_find?, whole, earlier]

theorem lookup_eq_none_iff {schema : Schema} {name : String} :
    schema.lookup name = none ↔ ∀ entity ∈ schema.entities, entity.name ≠ name := by
  simp [schema.lookup_eq_find?]

/-- An entity that passes validation is added unless its name is taken; otherwise nothing changes.
-/
def register (schema : Schema) (entity : Entity) : Except SchemaError Schema :=
  match valid : entity.validate with
  | .error problem => .error problem
  | .ok () =>
    if taken : (schema.lookup entity.name).isSome then .error (.duplicateEntity entity.name)
    else
      .ok
        { entities := schema.entities ++ [entity]
          distinct := by
            have fresh : ∀ other ∈ schema.entities, other.name ≠ entity.name :=
              lookup_eq_none_iff.1 (by simpa using taken)
            rw [List.map_append, List.nodup_append]
            refine ⟨schema.distinct, by simp, fun name mem other single => ?_⟩
            obtain ⟨old, memOld, rfl⟩ := List.mem_map.1 mem
            rw [List.map_singleton, List.mem_singleton] at single
            exact single ▸ fresh old memOld
          wellFormed := fun other mem => by
            rcases List.mem_append.1 mem with old | new
            · exact schema.wellFormed other old
            · rw [List.mem_singleton] at new
              exact new ▸ Entity.validate_eq_ok_iff.1 valid }

/-- The entities registered one after another, up to the first that cannot be. -/
def registerAll (schema : Schema) (entities : List Entity) : Except SchemaError Schema :=
  entities.foldlM register schema

/-- The names in ascending order. -/
def names (schema : Schema) : List String :=
  (schema.entities.map Entity.name).mergeSort fun first second => decide (first ≤ second)

/-- The number of entities. -/
def size (schema : Schema) : Nat :=
  schema.entities.length

/-- Whether there are no entities. -/
def isEmpty (schema : Schema) : Bool :=
  schema.entities.isEmpty

/-- What can be registered: an entity in order whose name is free. -/
theorem register_eq_ok_iff {schema later : Schema} {entity : Entity} :
    schema.register entity = .ok later ↔
      entity.WellFormed ∧ schema.lookup entity.name = none ∧
        later.entities = schema.entities ++ [entity] := by
  unfold register
  split
  · next problem failed =>
    refine ⟨fun impossible => (nomatch impossible), fun ⟨ordered, _⟩ => ?_⟩
    rw [Entity.validate_eq_ok_iff.2 ordered] at failed
    cases failed
  · next valid =>
    split
    · next taken =>
      refine ⟨fun impossible => (nomatch impossible), fun ⟨_, free, _⟩ => ?_⟩
      rw [free] at taken
      cases taken
    · next free =>
      constructor
      · intro same
        cases same
        exact ⟨Entity.validate_eq_ok_iff.1 valid, by simpa using free, rfl⟩
      · rintro ⟨_, _, same⟩
        exact congrArg _ (eq_of_entities same.symm)

/-- After a registration the new name stands for the new entity and all others for what they did. -/
theorem lookup_register {schema later : Schema} {entity : Entity} (name : String)
    (registered : schema.register entity = .ok later) :
    later.lookup name = if name = entity.name then some entity else schema.lookup name := by
  obtain ⟨_, free, entities⟩ := register_eq_ok_iff.1 registered
  rw [later.lookup_eq_find?, schema.lookup_eq_find?, entities, List.find?_append]
  by_cases same : name = entity.name
  · subst same
    have none_before : schema.entities.find? (fun other => other.name == entity.name) = none := by
      rwa [schema.lookup_eq_find?] at free
    simp [none_before]
  · have other : (entity.name == name) = false := by simpa using fun equal => same equal.symm
    simp [other, same]

end Schema

end EntityQuery

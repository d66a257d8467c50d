import EntityQuery.Schema.Registry
import Mathlib.Logic.Relation

/-!
# Eager relations

The eager relations of a schema are the steps of a graph over its entities (`EagerStep`). A trail is
a walk along such steps that enters no entity of a list and no entity twice (`EagerTrail`). A walk
can be shortened to a trail as long as it ends outside the list (`EagerTrail.extend`), so every
entity that can be reached from a registered one is the end of a trail that does not return to its
start (`eagerTrail_of_reachable`).
-/

set_option autoImplicit false

namespace EntityQuery.Schema

/-- An eager relation on a foreign key of the owner leads to a registered target. -/
def EagerStep (schema : Schema) (owner target : Entity) : Prop :=
  ∃ column ∈ owner.columns, ∃ relation, owner.hop? column = some relation ∧
    relation.eager = true ∧ schema.lookup relation.entity = some target

/-- Every eager relation on a foreign key of the owner names a registered entity. -/
def EagerClosed (schema : Schema) (owner : Entity) : Prop :=
  ∀ column ∈ owner.columns, ∀ relation, owner.hop? column = some relation →
    relation.eager = true → (schema.lookup relation.entity).isSome = true

/-- A walk along eager relations that enters neither an entity of the list nor an entity twice. -/
inductive EagerTrail (schema : Schema) : List String → Entity → Entity → Prop where
  | here (visiting : List String) (entity : Entity) : EagerTrail schema visiting entity entity
  | step {visiting : List String} {entity next target : Entity}
      (first : schema.EagerStep entity next) (fresh : next.name ∉ visiting)
      (rest : EagerTrail schema (next.name :: visiting) next target) :
      EagerTrail schema visiting entity target

variable {schema : Schema}

theorem EagerStep.registered {owner target : Entity} (step : schema.EagerStep owner target) :
    schema.lookup target.name = some target := by
  obtain ⟨_, _, _, _, _, found⟩ := step
  rw [schema.name_of_lookup found]
  exact found

/-- Registered entities of one name are the same. -/
theorem eq_of_registered {first second : Entity}
    (firstRegistered : schema.lookup first.name = some first)
    (secondRegistered : schema.lookup second.name = some second) (same : first.name = second.name) :
    first = second := by
  rw [same, secondRegistered] at firstRegistered
  exact (Option.some.inj firstRegistered).symm

/-- **A step from the end of a trail leads into the list, or to the end of another trail.** Where
the step enters an entity of the trail again, the trail is cut off there. -/
theorem EagerTrail.extend {visiting : List String} {entity middle target : Entity}
    (trail : schema.EagerTrail visiting entity middle) (last : schema.EagerStep middle target) :
    target.name ∈ visiting ∨ schema.EagerTrail visiting entity target := by
  induction trail with
  | here visiting entity =>
      by_cases visited : target.name ∈ visiting
      · exact .inl visited
      · exact .inr (.step last visited (.here _ _))
  | @step visiting entity next middle first fresh rest ih =>
      rcases ih last with visited | onwards
      · rcases List.mem_cons.mp visited with same | earlier
        · rw [eq_of_registered last.registered first.registered same]
          exact .inr (.step first fresh (.here _ _))
        · exact .inl earlier
      · exact .inr (.step first fresh onwards)

/-- **Every entity that eager relations reach from a registered one ends a trail that does not
return to its start.** -/
theorem eagerTrail_of_reachable {entity target : Entity}
    (registered : schema.lookup entity.name = some entity)
    (reachable : Relation.ReflTransGen schema.EagerStep entity target) :
    schema.EagerTrail [entity.name] entity target := by
  induction reachable with
  | refl => exact .here _ _
  | tail _ last ih =>
      rcases ih.extend last with start | onwards
      · rw [eq_of_registered last.registered registered (List.mem_singleton.mp start)]
        exact .here _ _
      · exact onwards

end EntityQuery.Schema

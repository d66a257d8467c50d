import EntityQuery.Schema.Entity
import EntityQuery.Proofs.Text.Octets

/-!
# Valid entities

An entity is valid if each of its relations is backed, which means that the first column of its
property refers to a column, and if its identifier, where it has one, is the property of a column
(`Entity.Valid`). These are the entities in order (`valid_iff_wellFormed`).

An entity that is not valid has one problem that is reported, whatever else is wrong with it: the
relation without a backing column whose property comes first in the order of octets, or else the
identifier (`Entity.Faulty`). The main statement is `validate_eq_error_iff`.
-/

set_option autoImplicit false

namespace EntityQuery

/-- An item of a list is the first that satisfies a condition. -/
def IsFirst {α : Type} (condition : α → Prop) (list : List α) (item : α) : Prop :=
  condition item ∧ ∃ before after, list = before ++ item :: after ∧
    ∀ earlier ∈ before, ¬ condition earlier

theorem find?_eq_some_iff_isFirst {α : Type} {condition : α → Bool} {list : List α} {item : α} :
    list.find? condition = some item ↔ IsFirst (fun other => condition other = true) list item := by
  simp only [List.find?_eq_some_iff_append, IsFirst, Bool.not_eq_true', Bool.not_eq_true]

namespace Entity

variable {entity : Entity}

theorem column?_eq_some_iff {property : String} {column : Column} :
    entity.column? property = some column ↔
      IsFirst (fun other => other.property = property) entity.columns column := by
  simp only [column?, find?_eq_some_iff_isFirst, beq_iff_eq]

/-- The first column of a property refers to a column. -/
def Backed (entity : Entity) (property : String) : Prop :=
  ∃ column reference, IsFirst (fun other => other.property = property) entity.columns column ∧
    column.reference? = some reference

theorem hasForeignKey_iff {property : String} :
    entity.hasForeignKey property = true ↔ entity.Backed property := by
  simp only [hasForeignKey, Option.any_eq_true, Column.isForeignKey, Option.isSome_iff_exists,
    column?_eq_some_iff, Backed, exists_and_left]

/-- Some column has the property. -/
def HasColumn (entity : Entity) (property : String) : Prop :=
  ∃ column ∈ entity.columns, column.property = property

theorem isSome_column?_iff {property : String} :
    (entity.column? property).isSome = true ↔ entity.HasColumn property := by
  simp only [column?, List.find?_isSome, beq_iff_eq, HasColumn]

/-- The first column of each relation refers to a column, and the identifier is the property of one.
-/
structure Valid (entity : Entity) : Prop where
  relations : ∀ property ∈ entity.relations.keys, entity.Backed property
  identifier : ∀ property, entity.identifier? = some property → entity.HasColumn property

/-- The valid entities are those in order. -/
theorem valid_iff_wellFormed : entity.Valid ↔ entity.WellFormed := by
  constructor
  · rintro ⟨relations, identifier⟩
    exact
      { foreignKeys := fun property key => hasForeignKey_iff.mpr (relations property key)
        identifier := fun property named => isSome_column?_iff.mpr (identifier property named) }
  · rintro ⟨foreignKeys, identifier⟩
    exact
      { relations := fun property key => hasForeignKey_iff.mp (foreignKeys property key)
        identifier := fun property named => isSome_column?_iff.mp (identifier property named) }

/-- An entity in order without a column for its identifier has no identifier. -/
theorem WellFormed.unidentified (ordered : entity.WellFormed)
    (missing : entity.identifierColumn? = none) : entity.identifier? = none := by
  cases named : entity.identifier? with
  | none => rfl
  | some property =>
      rw [identifierColumn?, named, Option.bind_some] at missing
      have present := ordered.identifier property named
      rw [missing] at present
      cases present

/-- A relation whose property has no backing column. -/
def Unbacked (entity : Entity) (property : String) : Prop :=
  property ∈ entity.relations.keys ∧ ¬ entity.Backed property

/-- The problem of an entity that is reported. -/
inductive Faulty (entity : Entity) : SchemaError → Prop
  /-- The unbacked relation that comes first in the order of octets. -/
  | relation {property : String} (unbacked : entity.Unbacked property)
      (least : ∀ other, entity.Unbacked other →
        other = property ∨ utf8Octets property < utf8Octets other) :
      Faulty entity (.relationWithoutForeignKey entity.name property)
  /-- The identifier, if no relation is unbacked. -/
  | identifier {property : String} (backed : ∀ other, ¬ entity.Unbacked other)
      (named : entity.identifier? = some property) (missing : ¬ entity.HasColumn property) :
      Faulty entity (.unknownIdentifier entity.name property)

namespace Faulty

theorem not_valid {problem : SchemaError} (faulty : entity.Faulty problem) : ¬ entity.Valid := by
  intro valid
  cases faulty with
  | relation unbacked least => exact unbacked.2 (valid.relations _ unbacked.1)
  | identifier backed named missing => exact missing (valid.identifier _ named)

/-- Only one problem is reported. -/
theorem unique {problem other : SchemaError} (faulty : entity.Faulty problem)
    (faultyToo : entity.Faulty other) : problem = other := by
  cases faulty with
  | relation unbacked least =>
      cases faultyToo with
      | relation unbackedToo leastToo =>
          rcases least _ unbackedToo with rfl | before
          · rfl
          · rcases leastToo _ unbacked with rfl | after
            · rfl
            · exact absurd after (List.lt_asymm before)
      | identifier backed => exact absurd unbacked (backed _)
  | identifier backed named missing =>
      cases faultyToo with
      | relation unbacked => exact absurd unbacked (backed _)
      | identifier _ namedToo =>
          rw [named] at namedToo
          cases namedToo
          rfl

end Faulty

/-- The first key that fails is the least of those that do, as keys ascend. -/
theorem faulty_of_find? {property : String}
    (found : (entity.relations.keys.find? fun key => !entity.hasForeignKey key) = some property) :
    entity.Faulty (.relationWithoutForeignKey entity.name property) := by
  obtain ⟨fails, before, after, keys, passed⟩ := find?_eq_some_iff_isFirst.mp found
  have unbacked_of : ∀ other, (!entity.hasForeignKey other) = true ↔ ¬ entity.Backed other :=
    fun other => by
    rw [← hasForeignKey_iff, Bool.not_eq_true', Bool.not_eq_true]
  refine .relation ⟨List.mem_of_find?_eq_some found, (unbacked_of _).mp fails⟩
    fun other unbacked => ?_
  have ascending : entity.relations.keys.Pairwise (· < ·) :=
    List.pairwise_map.mpr entity.relations.ascending
  have key := unbacked.1
  rw [keys] at ascending key
  rcases List.mem_append.mp key with early | late
  · exact absurd ((unbacked_of _).mpr unbacked.2) (passed other early)
  · rcases List.mem_cons.mp late with same | later
    · exact .inl same
    · have above := (List.pairwise_cons.mp (List.pairwise_append.mp ascending).2.1).1
      exact .inr (utf8Octets_lt_iff.mpr (above other later))

/-- **Validation reports the problem of an entity**, and none of a valid one. -/
theorem validate_eq_error_iff {problem : SchemaError} :
    entity.validate = .error problem ↔ entity.Faulty problem := by
  have reported : ∀ {other : SchemaError}, entity.validate = .error other →
      entity.Faulty other := by
    intro other fails
    unfold validate at fails
    split at fails
    · next property found =>
      cases fails
      exact faulty_of_find? found
    · next allBacked =>
      have backed : ∀ property, ¬ entity.Unbacked property := fun property unbacked =>
        unbacked.2
          (hasForeignKey_iff.mp
            (by simpa using List.find?_eq_none.mp allBacked property unbacked.1))
      split at fails
      · next property named =>
        split at fails
        · cases fails
        · next missing =>
          cases fails
          exact .identifier backed named fun present => missing (isSome_column?_iff.mpr present)
      · cases fails
  refine ⟨reported, fun faulty => ?_⟩
  cases outcome : entity.validate with
  | ok => exact absurd (valid_iff_wellFormed.mpr (validate_eq_ok_iff.mp outcome)) faulty.not_valid
  | error other => rw [faulty.unique (reported outcome)]

example : Entity.validate
    { name := "shop", table := "t_shop", identifier? := some "code", columns := []
      relations := Dictionary.ofList
        [("owner", ⟨"person", false, .manyToOne⟩), ("area", ⟨"area", true, .manyToOne⟩)] } =
    .error (.relationWithoutForeignKey "shop" "area") := by
  decide +kernel

end Entity

end EntityQuery

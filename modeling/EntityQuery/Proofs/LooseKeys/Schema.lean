import EntityQuery.Mapping.Path

/-!
# Loose keys

A foreign key is loose if its property has no relation. The plain form of an entity has its loose
keys as ordinary columns, without the columns that they refer to (`Entity.plain`), and the plain
form of a schema has the plain forms of its entities (`Schema.plain`). The entities of the plain
form can be registered one after another, as those of any schema can (`registerAll_entities`).

An entity and its plain form have the same names and relations, corresponding columns for each
property (`column?_plain`), and the same hops along them (`hop?_plain`).
-/

set_option autoImplicit false

namespace EntityQuery

namespace Entity

/-- A loose key: a foreign key whose property has no relation. -/
def isLoose (entity : Entity) (column : Column) : Bool :=
  column.isForeignKey && (entity.relation? column.property).isNone

/-- The column, without the one that it refers to if it is a loose key. -/
def plainColumn (entity : Entity) (column : Column) : Column :=
  if entity.isLoose column then { column with reference? := none } else column

/-- The entity with its loose keys as ordinary columns. -/
def plain (entity : Entity) : Entity :=
  { entity with columns := entity.columns.map entity.plainColumn }

@[simp] theorem plain_name (entity : Entity) : entity.plain.name = entity.name := rfl

@[simp] theorem plain_table (entity : Entity) : entity.plain.table = entity.table := rfl

@[simp] theorem plain_columns (entity : Entity) :
    entity.plain.columns = entity.columns.map entity.plainColumn := rfl

/-- Nothing but the reference of a column can differ in the plain form. -/
theorem plainColumn_eq (entity : Entity) (column : Column) :
    ∃ reference?, entity.plainColumn column = { column with reference? := reference? } := by
  unfold plainColumn
  split
  · exact ⟨none, rfl⟩
  · exact ⟨column.reference?, rfl⟩

@[simp] theorem plainColumn_property (entity : Entity) (column : Column) :
    (entity.plainColumn column).property = column.property := by
  obtain ⟨_, same⟩ := entity.plainColumn_eq column
  rw [same]

@[simp] theorem plainColumn_columnName (entity : Entity) (column : Column) :
    (entity.plainColumn column).columnName = column.columnName := by
  obtain ⟨_, same⟩ := entity.plainColumn_eq column
  rw [same]
  rfl

theorem plainColumn_of_relation {entity : Entity} {column : Column} {relation : Relation}
    (related : entity.relation? column.property = some relation) :
    entity.plainColumn column = column := by
  simp [plainColumn, isLoose, related]

/-- A column of the plain form is a foreign key if it was one and its property has a relation. -/
theorem isForeignKey_plainColumn (entity : Entity) (column : Column) :
    (entity.plainColumn column).isForeignKey =
      (column.isForeignKey && (entity.relation? column.property).isSome) := by
  cases related : entity.relation? column.property with
  | some relation => rw [plainColumn_of_relation related, Option.isSome_some, Bool.and_true]
  | none =>
      rw [Option.isSome_none, Bool.and_false]
      unfold plainColumn
      split
      · rfl
      · next kept => simpa [isLoose, related] using kept

/-- A column that leads along a relation is the same in the plain form. -/
theorem plainColumn_of_hop? {entity : Entity} {column : Column} {relation : Relation}
    (leads : entity.hop? column = some relation) : entity.plainColumn column = column := by
  rw [hop?, Option.ite_none_right_eq_some] at leads
  exact plainColumn_of_relation leads.2

theorem column?_plain (entity : Entity) (property : String) :
    entity.plain.column? property = (entity.column? property).map entity.plainColumn := by
  simp only [column?, plain_columns, List.find?_map, Function.comp_def, plainColumn_property]

theorem identifierColumn?_plain (entity : Entity) :
    entity.plain.identifierColumn? = entity.identifierColumn?.map entity.plainColumn := by
  unfold identifierColumn?
  cases named : entity.identifier? with
  | none =>
      have unnamed : entity.plain.identifier? = none := named
      rw [unnamed]
      rfl
  | some property =>
      have namedToo : entity.plain.identifier? = some property := named
      rw [namedToo]
      exact entity.column?_plain property

/-- **A column and its plain form lead along the same relation**, or both lead nowhere. -/
theorem hop?_plain (entity : Entity) (column : Column) :
    entity.plain.hop? (entity.plainColumn column) = entity.hop? column := by
  have related : entity.plain.relation? (entity.plainColumn column).property =
      entity.relation? column.property := by
    rw [plainColumn_property]
    rfl
  rw [hop?, hop?, related, isForeignKey_plainColumn]
  cases column.isForeignKey <;> cases entity.relation? column.property <;> rfl

/-- A relation sits on a foreign key of the plain form if it does in the entity. -/
theorem hasForeignKey_plain {entity : Entity} {property : String}
    (key : property ∈ entity.relations.keys) :
    entity.plain.hasForeignKey property = entity.hasForeignKey property := by
  have related : (entity.relation? property).isSome = true :=
    Dictionary.isSome_find?_of_mem_keys key
  rw [hasForeignKey, hasForeignKey, column?_plain, Option.any_map]
  cases named : entity.column? property with
  | none => rfl
  | some column =>
      simp only [Option.any_some, isForeignKey_plainColumn, property_of_column? named, related,
        Bool.and_true]

/-- The plain form of an entity in order is in order. -/
theorem WellFormed.plain {entity : Entity} (ordered : entity.WellFormed) :
    entity.plain.WellFormed where
  foreignKeys property key := by
    have keyed : property ∈ entity.relations.keys := key
    rw [hasForeignKey_plain keyed]
    exact ordered.foreignKeys property keyed
  identifier property named := by
    rw [column?_plain, Option.isSome_map]
    exact ordered.identifier property named

end Entity

namespace Schema

/-- The schema of the plain forms of a schema's entities. -/
def plain (schema : Schema) : Schema where
  entities := schema.entities.map Entity.plain
  distinct := by
    rw [List.map_map]
    exact schema.distinct
  wellFormed entity member := by
    obtain ⟨old, memberOld, rfl⟩ := List.mem_map.mp member
    exact (schema.wellFormed old memberOld).plain

theorem lookup_plain (schema : Schema) (name : String) :
    schema.plain.lookup name = (schema.lookup name).map Entity.plain := by
  simp only [lookup_eq_find?, plain, List.find?_map, Function.comp_def, Entity.plain_name]

theorem entity_plain (schema : Schema) (name : String) :
    schema.plain.entity name = (schema.entity name).map Entity.plain := by
  unfold Registry.entity
  rw [lookup_plain]
  cases schema.lookup name <;> rfl

/-- A schema that begins with the entities of another comes from it by registering the others. -/
theorem registerAll_of_entities {schema earlier : Schema} {rest : List Entity}
    (whole : schema.entities = earlier.entities ++ rest) :
    earlier.registerAll rest = .ok schema := by
  induction rest generalizing earlier with
  | nil => exact congrArg Except.ok (eq_of_entities (by simpa using whole.symm))
  | cons entity rest ih =>
      have begins : (earlier.entities ++ [entity]).Sublist schema.entities := by
        rw [whole]
        simp
      let later : Schema :=
        { entities := earlier.entities ++ [entity]
          distinct := schema.distinct.sublist (begins.map _)
          wellFormed := fun other member => schema.wellFormed other (begins.subset member) }
      have free : earlier.lookup entity.name = none := by
        rw [lookup_eq_none_iff]
        intro other member same
        have distinct := later.distinct
        simp only [later, List.map_append, List.nodup_append] at distinct
        exact distinct.2.2 other.name (List.mem_map_of_mem member) entity.name (by simp) same
      have registered : earlier.register entity = .ok later :=
        register_eq_ok_iff.mpr ⟨later.wellFormed entity (by simp [later]), free, rfl⟩
      have others : later.registerAll rest = .ok schema := ih (by simp [later, whole])
      rw [registerAll, List.foldlM_cons, registered]
      exact others

/-- **Every schema comes from registering its entities one after another.** -/
theorem registerAll_entities (schema : Schema) : empty.registerAll schema.entities = .ok schema :=
  registerAll_of_entities rfl

end Schema

end EntityQuery

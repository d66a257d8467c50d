import EntityQuery.Proofs.Mutations.Literals
import EntityQuery.Proofs.Sample
import Mathlib.Data.List.Basic

/-!
# Inserts

An insert is made column by column, in two lists, which are the sides of a list of pairs
(`insert_eq`). The pairs belong to the columns whose properties are defined
(`Entity.definedColumns`): their names and what they write stand in the two lists in the order of
the entity (`Entity.InsertsRow`). There is one such statement and it is the insert
(`insertsRow_iff`), so an insert never fails.

The more properties are defined, the more pairs of a name and a literal an insert has, in the same
order (`insertedColumns_sublist`). The main statement is `Schema.mutate_insert_parallel`.
-/

set_option autoImplicit false

namespace EntityQuery

/-- Each property of an instance has the same value in another one. -/
def Instance.Extends (larger instance_ : Instance) : Prop :=
  ∀ property value, instance_.property property = some value → larger.property property = some value

namespace Entity

/-- The columns whose properties are defined, by null or by another value. -/
def definedColumns (entity : Entity) (instance_ : Instance) : List Column :=
  entity.columns.filter fun column => (instance_.property column.property).isSome

/-- The pair of a column's name and what it writes for its property. -/
def inserted (instance_ : Instance) (column : Column) : String × Sql.Expr :=
  (column.columnName, column.literal ((instance_.property column.property).getD .null))

/-- A statement inserts the row of an instance: the names of the columns whose properties are
defined stand beside what these columns write. -/
structure InsertsRow (entity : Entity) (instance_ : Instance) (statement : Sql.Insert) : Prop where
  table : statement.table = entity.table
  columns : statement.columns = (entity.definedColumns instance_).map Column.columnName
  values : List.Forall₂ (Column.Inlines instance_) (entity.definedColumns instance_)
    statement.values

variable {entity : Entity} {instance_ larger : Instance} {column : Column} {statement : Sql.Insert}

/-- The pair of a column's name and its value, if its property is defined. -/
def insertedPair? (instance_ : Instance) (column : Column) : Option (String × Sql.Expr) :=
  (instance_.property column.property).map fun value => (column.columnName, column.literal value)

/-- The columns of the defined properties of an instance, with their values. -/
def insertedColumns (entity : Entity) (instance_ : Instance) : List (String × Sql.Expr) :=
  entity.columns.filterMap (insertedPair? instance_)

/-- A column is added to both lists or to none. -/
theorem foldl_addColumn (columns : List Column) (names : List String) (values : List Sql.Expr) :
    columns.foldl (addColumn instance_) (names, values) =
      (names ++ (columns.filterMap (insertedPair? instance_)).map (·.1),
        values ++ (columns.filterMap (insertedPair? instance_)).map (·.2)) := by
  induction columns generalizing names values with
  | nil => simp
  | cons column rest ih =>
      rw [List.foldl_cons, addColumn]
      cases found : instance_.property column.property with
      | none => simp [ih, insertedPair?, found]
      | some value => simp [ih, insertedPair?, found]

/-- **The two lists of an insert are the sides of one list of pairs.** -/
theorem insert_eq (entity : Entity) (instance_ : Instance) :
    entity.insert instance_ =
      { table := entity.table
        columns := (entity.insertedColumns instance_).map (·.1)
        values := (entity.insertedColumns instance_).map (·.2) } := by
  rw [insert, foldl_addColumn]
  rfl

theorem insertedColumns_eq (entity : Entity) (instance_ : Instance) :
    entity.insertedColumns instance_ =
      (entity.definedColumns instance_).map (inserted instance_) := by
  unfold insertedColumns definedColumns
  induction entity.columns with
  | nil => rfl
  | cons column rest ih =>
      cases found : instance_.property column.property with
      | none => simp [insertedPair?, found, ih]
      | some value => simp [insertedPair?, found, ih, inserted]

/-- One statement inserts the row of an instance. -/
theorem insertsRow_iff : entity.InsertsRow instance_ statement ↔
    statement = entity.insert instance_ := by
  have writing : ∀ {values},
      List.Forall₂ (Column.Inlines instance_) (entity.definedColumns instance_) values ↔
        (entity.definedColumns instance_).map (fun column => (inserted instance_ column).2) =
          values :=
    forall₂_iff_map_eq fun _ _ => by rw [Column.inlines_iff, inserted]
  have names : (entity.insertedColumns instance_).map (·.1) =
      (entity.definedColumns instance_).map Column.columnName := by
    rw [insertedColumns_eq, List.map_map]
    rfl
  have literals : (entity.insertedColumns instance_).map (·.2) =
      (entity.definedColumns instance_).map fun column => (inserted instance_ column).2 := by
    rw [insertedColumns_eq, List.map_map]
    rfl
  obtain ⟨table, columns, values⟩ := statement
  simp only [insert_eq, names, literals]
  constructor
  · rintro ⟨rfl, rfl, written⟩
    rw [writing.mp written]
  · intro same
    cases same
    exact ⟨rfl, rfl, writing.mpr rfl⟩

/-- The lists of an insert pair up. -/
theorem zip_insert (entity : Entity) (instance_ : Instance) :
    (entity.insert instance_).columns.zip (entity.insert instance_).values =
      entity.insertedColumns instance_ := by
  have apart := List.zip_unzip (entity.insertedColumns instance_)
  rw [List.unzip_eq_map] at apart
  rw [insert_eq, apart]

/-- **An instance with more properties has more columns inserted.** -/
theorem insertedColumns_sublist (extends_ : larger.Extends instance_) :
    (entity.insertedColumns instance_).Sublist (entity.insertedColumns larger) := by
  have same : (entity.definedColumns instance_).map (inserted instance_) =
      (entity.definedColumns instance_).map (inserted larger) := by
    refine List.map_congr_left fun column member => ?_
    obtain ⟨value, found⟩ := Option.isSome_iff_exists.mp (List.mem_filter.mp member).2
    rw [inserted, inserted, found, extends_ column.property value found]
  have fewer : (entity.definedColumns instance_).Sublist (entity.definedColumns larger) := by
    refine List.monotone_filter_right _ fun column defined => ?_
    obtain ⟨value, found⟩ := Option.isSome_iff_exists.mp defined
    rw [extends_ column.property value found]
    rfl
  rw [insertedColumns_eq, insertedColumns_eq, same]
  exact fewer.map _

end Entity

namespace Schema

/-- **An insert of an instance of a registered entity never fails.** Its statement has a name and a
value for each column whose property is defined, in the order of the entity, and if every property
of an instance has the same value in another instance of the entity, the pairs of the one are among
those of the other, in order. -/
theorem mutate_insert_parallel {schema : Schema} {instance_ : Instance} {entity : Entity}
    (registered : schema.lookup instance_.entity = some entity) :
    ∃ statement, schema.mutate .insert instance_ = .ok statement.render ∧
      entity.InsertsRow instance_ statement ∧ statement.columns.length = statement.values.length ∧
      ∀ larger : Instance, larger.entity = instance_.entity → larger.Extends instance_ →
        ∃ more, schema.mutate .insert larger = .ok more.render ∧ entity.InsertsRow larger more ∧
          (statement.columns.zip statement.values).Sublist (more.columns.zip more.values) := by
  have answered : ∀ other : Instance, other.entity = instance_.entity →
      schema.mutate .insert other = .ok (entity.insert other).render := by
    intro other same
    rw [mutate, same, registered]
  refine ⟨entity.insert instance_, answered instance_ rfl, Entity.insertsRow_iff.mpr rfl, ?_,
    fun larger same extends_ => ⟨entity.insert larger, answered larger same,
      Entity.insertsRow_iff.mpr rfl, ?_⟩⟩
  · simp only [Entity.insert_eq, List.length_map]
  · rw [Entity.zip_insert, Entity.zip_insert]
    exact Entity.insertedColumns_sublist extends_

/-- The described area has a pair for each of its three properties, among them that of its number.
-/
theorem mutate_insert_parallel_area :
    Sample.schema.lookup "Area" = some Sample.area ∧ Sample.described.Extends Sample.numbered ∧
      Sample.schema.mutate .insert Sample.numbered = .ok "insert into t_area (id) values (7)" ∧
      Sample.schema.mutate .insert Sample.described =
        .ok "insert into t_area (id,name,parent_id) values (7,null,3)" ∧
      ∃ statement more : Sql.Insert,
        Sample.area.InsertsRow Sample.numbered statement ∧
        Sample.area.InsertsRow Sample.described more ∧
        (statement.columns.zip statement.values).Sublist (more.columns.zip more.values) := by
  have registered : Sample.schema.lookup Sample.numbered.entity = some Sample.area := by decide
  have larger : Sample.described.Extends Sample.numbered := by
    intro property value found
    by_cases same : property = "id"
    · subst same
      exact found
    · simp [Sample.numbered, Instance.ofFields, List.lookup_cons,
        beq_eq_false_iff_ne.mpr same] at found
  obtain ⟨statement, -, inserts, -, others⟩ := mutate_insert_parallel registered
  obtain ⟨more, -, insertsToo, sublist⟩ := others Sample.described rfl larger
  exact ⟨registered, larger, by decide, by decide, statement, more, inserts, insertsToo, sublist⟩

end Schema

end EntityQuery

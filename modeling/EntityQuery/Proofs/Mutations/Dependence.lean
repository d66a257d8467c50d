import EntityQuery.Proofs.Mutations.Inserts
import EntityQuery.Proofs.Mutations.Updates
import EntityQuery.Proofs.Text.Joined
import Mathlib.Data.List.Find
import Mathlib.Logic.Function.Basic

/-!
# What mutations depend on

An insert reads the properties of all columns, an update those of the columns that are no foreign
keys and the identifier, and a delete the identifier alone (`Entity.Reads`). Instances of one entity
that agree on what a mutation reads have the same answer (`mutate_congr`), be it a statement or an
error.

A mutation reads no more than it must: for each property that it reads, there are two instances that
differ in that property only and have different answers (`mutate_depends`), unless the entity has no
identifier and the mutation needs one. The main statement is `Schema.mutate_reads`.
-/

set_option autoImplicit false

namespace EntityQuery

/-- A mutation of an instance reads a property. -/
def Entity.Reads (entity : Entity) : Mutation → String → Prop
  | .insert, property => entity.HasColumn property
  | .update, property =>
    (∃ column ∈ entity.columns, column.property = property ∧ column.reference? = none) ∨
      entity.identifier? = some property
  | .delete, property => entity.identifier? = some property

/-- All columns of a property are foreign keys, and it is not the identifier. -/
def Entity.OnlyKeys (entity : Entity) (property : String) : Prop :=
  (∀ column ∈ entity.columns, column.property = property → column.reference? ≠ none) ∧
    entity.identifier? ≠ some property

/-- Two instances are of one entity and agree on some of its properties, if it is registered. -/
structure Schema.Agree (schema : Schema) (properties : Entity → String → Prop)
    (first second : Instance) : Prop where
  sameEntity : first.entity = second.entity
  agree : ∀ entity, schema.lookup first.entity = some entity →
    ∀ property, properties entity property →
    first.property property = second.property property

namespace Entity

variable {entity : Entity} {first second : Instance} {identifier : Column}

/-! ## Instances that agree -/

theorem insert_congr (agree : ∀ property, entity.HasColumn property →
    first.property property = second.property property) :
    entity.insert first = entity.insert second := by
  have same : entity.insertedColumns first = entity.insertedColumns second :=
    List.filterMap_congr fun column member => by
      rw [insertedPair?, insertedPair?, agree column.property ⟨column, member, rfl⟩]
  rw [insert_eq, insert_eq, same]

theorem identifierValue_congr
    (agree : first.property identifier.property = second.property identifier.property) :
    entity.identifierValue identifier first = entity.identifierValue identifier second := by
  rw [identifierValue, identifierValue, agree]

theorem updateOf_congr {columns : List Column}
    (agree : ∀ column ∈ columns, first.property column.property = second.property column.property)
    (agreeToo : first.property identifier.property = second.property identifier.property) :
    entity.updateOf identifier columns first = entity.updateOf identifier columns second := by
  have refusals : entity.refusal? columns first = entity.refusal? columns second := by
    rw [refusal?, refusal?, List.find?_congr fun column member => ?_]
    rw [cannotTake, cannotTake, agree column member]
  have assignments : columns.map (assigned first) = columns.map (assigned second) :=
    List.map_congr_left fun column member => by rw [assigned, assigned, agree column member]
  rw [updateOf, updateOf, refusals, assignments, identifierValue_congr agreeToo]

theorem update_congr (agree : ∀ property, entity.Reads .update property →
    first.property property = second.property property) :
    entity.update first = entity.update second := by
  cases identified : entity.identifierColumn? with
  | none => rw [update, update, identified]
  | some identifier =>
      rw [update_eq identified, update_eq identified]
      refine updateOf_congr (fun column member => ?_) ?_
      · obtain ⟨member, keyless⟩ := mem_keylessColumns.mp member
        exact agree column.property (.inl ⟨column, member, rfl, keyless⟩)
      · exact agree identifier.property (.inr (identifier?_of_identifierColumn? identified))

/-- A delete is of the row that the identifier finds, if it has a value. -/
theorem delete_eq (identified : entity.identifierColumn? = some identifier) (instance_ : Instance) :
    entity.delete instance_ =
      (entity.identifierValue identifier instance_).map fun value =>
        { table := entity.table, condition := .equation (bareColumn identifier) value } := by
  rw [delete, identified]
  dsimp only
  cases entity.identifierValue identifier instance_ <;> rfl

theorem delete_congr (agree : ∀ property, entity.Reads .delete property →
    first.property property = second.property property) :
    entity.delete first = entity.delete second := by
  cases identified : entity.identifierColumn? with
  | none => rw [delete, delete, identified]
  | some identifier =>
      have same := agree identifier.property (identifier?_of_identifierColumn? identified)
      rw [delete_eq identified, delete_eq identified, identifierValue_congr same]

/-- The property of an identifier is that of a column, so a mutation reads properties of columns
only. -/
theorem WellFormed.hasColumn_of_reads (ordered : entity.WellFormed) {mutation : Mutation}
    {property : String} (reads : entity.Reads mutation property) : entity.HasColumn property := by
  have identifies : entity.identifier? = some property → entity.HasColumn property :=
    (valid_iff_wellFormed.mpr ordered).identifier property
  cases mutation with
  | insert => exact reads
  | delete => exact identifies reads
  | update =>
      rcases reads with ⟨column, member, same, -⟩ | identified
      · exact ⟨column, member, same⟩
      · exact identifies identified

/-- An update reads what is not only foreign keys. -/
theorem not_onlyKeys_of_reads {property : String} (reads : entity.Reads .update property) :
    ¬ entity.OnlyKeys property := by
  rintro ⟨keys, notIdentifier⟩
  rcases reads with ⟨column, member, same, keyless⟩ | identified
  · exact keys column member same keyless
  · exact notIdentifier identified

end Entity

/-! ## Instances that differ in one property -/

/-- The text that a column writes for its property of an instance. -/
def Column.written (column : Column) (instance_ : Instance) : String :=
  (column.literal ((instance_.property column.property).getD .null)).render

/-- Two instances have values for all properties, and all that is written for the second is at least
as long as for the first, and longer for one property. -/
structure Instance.LongerAt (first second : Instance) (property : String) : Prop where
  valued : ∀ other, ¬ first.Lacks other
  valuedToo : ∀ other, ¬ second.Lacks other
  noShorter : ∀ column : Column, (column.written first).length ≤ (column.written second).length
  longer : ∀ column : Column, column.property = property →
    (column.written first).length < (column.written second).length

/-- There are such instances that differ in that property only: a zero becomes a ten. -/
theorem Instance.exists_longerAt (name property : String) :
    ∃ first second : Instance, first.entity = name ∧ second.entity = name ∧
      (∀ other, other ≠ property → first.property other = second.property other) ∧
      first.LongerAt second property := by
  let zeros : String → Option Value := fun _ => some (.int 0)
  let changed : String → Option Value := Function.update zeros property (some (.int 10))
  have changed_of_ne : ∀ other, other ≠ property → changed other = zeros other :=
    fun other differs =>
    Function.update_of_ne differs _ _
  have changed_self : changed property = some (.int 10) := Function.update_self _ _ _
  have tenIsLonger : ∀ column : Column, (column.literal (.int 0)).render.length <
      (column.literal (.int 10)).render.length := by
    intro column
    unfold Column.literal
    cases column.kind <;> decide
  have longer : ∀ column : Column, column.property = property →
      (column.written ⟨name, zeros⟩).length < (column.written ⟨name, changed⟩).length := by
    intro column same
    simp only [Column.written, same, changed_self]
    exact tenIsLonger column
  refine ⟨⟨name, zeros⟩, ⟨name, changed⟩, rfl, rfl,
    fun other differs => (changed_of_ne other differs).symm,
    ⟨fun other => ?_, fun other => ?_, fun column => ?_, longer⟩⟩
  · simp [Instance.Lacks, zeros, Value.isNull]
  · by_cases same : other = property
    · simp [Instance.Lacks, same, changed_self, Value.isNull]
    · simp [Instance.Lacks, changed_of_ne other same, zeros, Value.isNull]
  · by_cases same : column.property = property
    · exact (longer column same).le
    · simp only [Column.written, changed_of_ne _ same, le_refl]

namespace Entity

variable {entity : Entity} {first second instance_ : Instance} {identifier : Column}
  {property : String}

/-- An instance with a value for every property is inserted with all columns. -/
theorem render_insert (valued : ∀ property, ¬ instance_.Lacks property) :
    (entity.insert instance_).render =
      "insert into " ++ entity.table ++ " (" ++
        String.intercalate "," (entity.columns.map Column.columnName) ++ ") values (" ++
        String.intercalate "," (entity.columns.map (·.written instance_)) ++ ")" := by
  have all : entity.definedColumns instance_ = entity.columns := by
    refine List.filter_eq_self.mpr fun column _ => ?_
    cases found : instance_.property column.property with
    | none => exact absurd (.inl found) (valued column.property)
    | some value => rfl
  unfold Sql.Insert.render Sql.renderList
  rw [Sql.Expr.renderEach_eq_map]
  simp only [insert_eq, insertedColumns_eq, all, List.map_map]
  rfl

theorem length_insert_lt (longer : first.LongerAt second property)
    (reads : entity.Reads .insert property) :
    (entity.insert first).render.length < (entity.insert second).render.length := by
  obtain ⟨column, member, same⟩ := reads
  have values := length_intercalate_lt (fun column _ => longer.noShorter column)
    ⟨column, member, longer.longer column same⟩
  rw [render_insert longer.valued, render_insert longer.valuedToo]
  simp only [String.length_append]
  omega

/-- An instance with a value for every property is updated. -/
theorem update_of_valued (identified : entity.identifierColumn? = some identifier)
    (valued : ∀ property, ¬ instance_.Lacks property) :
    ∃ statement, entity.update instance_ = .ok statement ∧
      statement.render =
        "update " ++ entity.table ++ " set " ++
          String.intercalate "," (entity.keylessColumns.map fun column =>
            column.columnName ++ "=" ++ column.written instance_) ++
          " where " ++ (identifier.columnName ++ "=" ++ identifier.written instance_) := by
  have accepted : entity.refusal? entity.keylessColumns instance_ = none :=
    refusal?_eq_none_iff.mpr fun column _ refuses => valued column.property refuses.lacks
  rw [update_eq identified, updateOf, accepted,
    identifierValue_of_not_lacks (valued identifier.property)]
  refine ⟨_, rfl, ?_⟩
  unfold Sql.Update.render
  rw [List.map_map]
  rfl

theorem length_update_lt (identified : entity.identifierColumn? = some identifier)
    (longer : first.LongerAt second property) (reads : entity.Reads .update property) :
    ∃ statement more, entity.update first = .ok statement ∧ entity.update second = .ok more ∧
      statement.render.length < more.render.length := by
  obtain ⟨statement, updated, text⟩ := update_of_valued identified longer.valued
  obtain ⟨more, updatedToo, textToo⟩ := update_of_valued identified longer.valuedToo
  refine ⟨statement, more, updated, updatedToo, ?_⟩
  have noShorter : ∀ column ∈ entity.keylessColumns,
      (column.columnName ++ "=" ++ column.written first).length ≤
        (column.columnName ++ "=" ++ column.written second).length := by
    intro column _
    have := longer.noShorter column
    simp only [String.length_append]
    omega
  have condition := longer.noShorter identifier
  rw [text, textToo]
  simp only [String.length_append]
  rcases reads with ⟨column, member, same, keyless⟩ | named
  · have assignments := length_intercalate_lt noShorter
      ⟨column, mem_keylessColumns.mpr ⟨member, keyless⟩, by
        have := longer.longer column same
        simp only [String.length_append]
        omega⟩
    omega
  · have assignments := length_intercalate_le noShorter
    rw [identifier?_of_identifierColumn? identified] at named
    have longerToo := longer.longer identifier (Option.some.inj named)
    omega

/-- An instance with a value for every property is deleted. -/
theorem delete_of_valued (identified : entity.identifierColumn? = some identifier)
    (valued : ∀ property, ¬ instance_.Lacks property) :
    ∃ statement, entity.delete instance_ = .ok statement ∧
      statement.render =
        "delete from " ++ entity.table ++ " where " ++
          (identifier.columnName ++ " = " ++ identifier.written instance_) := by
  rw [delete_eq identified, identifierValue_of_not_lacks (valued identifier.property)]
  exact ⟨_, rfl, rfl⟩

theorem length_delete_lt (identified : entity.identifierColumn? = some identifier)
    (longer : first.LongerAt second property) (reads : entity.Reads .delete property) :
    ∃ statement more, entity.delete first = .ok statement ∧ entity.delete second = .ok more ∧
      statement.render.length < more.render.length := by
  obtain ⟨statement, deleted, text⟩ := delete_of_valued identified longer.valued
  obtain ⟨more, deletedToo, textToo⟩ := delete_of_valued identified longer.valuedToo
  refine ⟨statement, more, deleted, deletedToo, ?_⟩
  rw [Reads, identifier?_of_identifierColumn? identified] at reads
  have condition := longer.longer identifier (Option.some.inj reads)
  rw [text, textToo]
  simp only [String.length_append]
  omega

end Entity

namespace Schema

variable {schema : Schema} {mutation : Mutation} {first second instance_ : Instance}

/-- Instances that agree on some properties agree on fewer. -/
theorem Agree.mono {more fewer : Entity → String → Prop} (agree : schema.Agree more first second)
    (included : ∀ entity, schema.lookup first.entity = some entity →
      ∀ property, fewer entity property → more entity property) :
    schema.Agree fewer first second where
  sameEntity := agree.sameEntity
  agree entity registered property read :=
    agree.agree entity registered property (included entity registered property read)

/-- **A mutation depends on no property that it does not read.** -/
theorem mutate_congr (agree : schema.Agree (fun entity => entity.Reads mutation) first second) :
    schema.mutate mutation first = schema.mutate mutation second := by
  rw [mutate, mutate, ← agree.sameEntity]
  cases registered : schema.lookup first.entity with
  | none => rfl
  | some entity =>
      have same := agree.agree entity registered
      cases mutation with
      | insert => exact congrArg (Except.ok ∘ Sql.Insert.render) (Entity.insert_congr same)
      | update => exact congrArg (Sql.Update.render <$> ·) (Entity.update_congr same)
      | delete => exact congrArg (Sql.Delete.render <$> ·) (Entity.delete_congr same)

/-- **A mutation depends on every property that it reads**, if the entity has an identifier or the
mutation is an insert. -/
theorem mutate_depends {name property : String} {entity : Entity}
    (registered : schema.lookup name = some entity)
    (answers : mutation = .insert ∨ entity.identifier?.isSome = true)
    (reads : entity.Reads mutation property) :
    ∃ first second : Instance, first.entity = name ∧ second.entity = name ∧
      (∀ other, other ≠ property → first.property other = second.property other) ∧
      schema.mutate mutation first ≠ schema.mutate mutation second := by
  obtain ⟨first, second, rfl, named, agree, longer⟩ := Instance.exists_longerAt name property
  refine ⟨first, second, rfl, named, agree, ?_⟩
  rw [mutate, mutate, named, registered]
  have ne_of_lt : ∀ {text other : String}, text.length < other.length →
      (.ok text : Except MappingError String) ≠ .ok other := by
    intro text other less same
    rw [Except.ok.inj same] at less
    exact less.ne rfl
  have identifies : mutation ≠ .insert → ∃ identifier,
      entity.identifierColumn? = some identifier := by
    intro noInsert
    obtain ⟨_, identified⟩ := Option.isSome_iff_exists.mp (answers.resolve_left noInsert)
    obtain ⟨identifier, found, -⟩ :=
      (wellFormed_of_lookup registered).exists_identifierColumn? identified
    exact ⟨identifier, found⟩
  cases mutation with
  | insert => exact ne_of_lt (Entity.length_insert_lt longer reads)
  | update =>
      obtain ⟨identifier, identified⟩ := identifies (by decide)
      obtain ⟨statement, more, updated, updatedToo, less⟩ :=
        Entity.length_update_lt identified longer reads
      dsimp only
      rw [updated, updatedToo]
      exact ne_of_lt less
  | delete =>
      obtain ⟨identifier, identified⟩ := identifies (by decide)
      obtain ⟨statement, more, deleted, deletedToo, less⟩ :=
        Entity.length_delete_lt identified longer reads
      dsimp only
      rw [deleted, deletedToo]
      exact ne_of_lt less

/-- **A delete succeeds** for a registered entity with an identifier that has a value. -/
theorem exists_delete_iff :
    (∃ text, schema.mutate .delete instance_ = .ok text) ↔
      ∃ entity property, schema.lookup instance_.entity = some entity ∧
        entity.identifier? = some property ∧ ¬ instance_.Lacks property := by
  rw [mutate]
  cases registered : schema.lookup instance_.entity with
  | none => simp
  | some entity =>
      have ordered := wellFormed_of_lookup registered
      simp only [Option.some.injEq, exists_eq_left', exists_and_left]
      constructor
      · rintro ⟨text, answer⟩
        obtain ⟨statement, deleted, -⟩ := ok_of_map answer
        cases identified : entity.identifierColumn? with
        | none =>
            rw [Entity.delete, identified] at deleted
            cases deleted
        | some identifier =>
            refine ⟨identifier.property, Entity.identifier?_of_identifierColumn? identified,
              fun lacks => ?_⟩
            rw [Entity.delete_eq identified, Entity.identifierValue_of_lacks lacks] at deleted
            cases deleted
      · rintro ⟨property, named, valued⟩
        obtain ⟨identifier, identified, rfl⟩ := ordered.exists_identifierColumn? named
        rw [Entity.delete_eq identified, Entity.identifierValue_of_not_lacks valued]
        exact ⟨_, rfl⟩

/-- **Mutations read only what they must.** Instances that agree on what a mutation reads have the
same answer: an insert reads the properties of columns, an update those of columns that are no
foreign keys and the identifier, a delete the identifier. So a property without a column has no
influence on any mutation, and one whose columns are foreign keys has none on an update, unless it
is the identifier. A delete succeeds exactly if the identifier has a value, and every property that
is read may change an answer. -/
theorem mutate_reads (schema : Schema) :
    (∀ mutation first second, schema.Agree (fun entity => entity.Reads mutation) first second →
      schema.mutate mutation first = schema.mutate mutation second) ∧
    (∀ mutation first second, schema.Agree Entity.HasColumn first second →
      schema.mutate mutation first = schema.mutate mutation second) ∧
    (∀ first second, schema.Agree (fun entity property => ¬ entity.OnlyKeys property) first second →
      schema.mutate .update first = schema.mutate .update second) ∧
    (∀ instance_ : Instance, (∃ text, schema.mutate .delete instance_ = .ok text) ↔
      ∃ entity property, schema.lookup instance_.entity = some entity ∧
        entity.identifier? = some property ∧ ¬ instance_.Lacks property) ∧
    ∀ name entity, schema.lookup name = some entity →
      ∀ mutation, mutation = .insert ∨ entity.identifier?.isSome = true → ∀ property,
        entity.Reads mutation property ↔
          ∃ first second : Instance, first.entity = name ∧ second.entity = name ∧
            (∀ other, other ≠ property → first.property other = second.property other) ∧
            schema.mutate mutation first ≠ schema.mutate mutation second := by
  refine ⟨fun mutation first second => mutate_congr,
    fun mutation first second agree => mutate_congr ?_,
    fun first second agree => mutate_congr ?_, fun instance_ => exists_delete_iff,
    fun name entity registered mutation answers property => ?_⟩
  · exact agree.mono fun entity registered property =>
      (wellFormed_of_lookup registered).hasColumn_of_reads
  · exact agree.mono fun entity _ property => Entity.not_onlyKeys_of_reads
  · refine ⟨mutate_depends registered answers, ?_⟩
    rintro ⟨first, second, rfl, named, agree, differ⟩
    by_contra unread
    refine differ (mutate_congr ⟨named.symm, fun other registeredToo read reads => agree read ?_⟩)
    rintro rfl
    rw [registered] at registeredToo
    cases registeredToo
    exact unread reads

/-- A delete of the described area is that of the area of which only the number is known. -/
theorem mutate_reads_area :
    Sample.schema.Agree (fun entity => entity.Reads .delete) Sample.numbered Sample.described ∧
      Sample.schema.mutate .delete Sample.numbered = .ok "delete from t_area where id = 7" ∧
      Sample.schema.mutate .delete Sample.described = .ok "delete from t_area where id = 7" := by
  have agree : Sample.schema.Agree (fun entity => entity.Reads .delete) Sample.numbered
      Sample.described := by
    refine ⟨rfl, fun entity registered property reads => ?_⟩
    have area : Sample.schema.lookup Sample.numbered.entity = some Sample.area := by decide
    rw [area] at registered
    cases registered
    cases reads
    rfl
  have deleted : Sample.schema.mutate .delete Sample.numbered =
      .ok "delete from t_area where id = 7" := by
    decide
  exact ⟨agree, deleted, ((mutate_reads Sample.schema).1 _ _ _ agree).symm.trans deleted⟩

end Schema

end EntityQuery

import EntityQuery.Proofs.Mutations.Literals
import EntityQuery.Proofs.Outcome
import EntityQuery.Proofs.Sample
import EntityQuery.Proofs.Schema.Validation

/-!
# Updates

An update assigns the columns that are no foreign keys (`Entity.keylessColumns`), one after another,
and then looks for the value of the identifier. So it is one statement over a list of columns
(`Entity.updateOf`): it fails for the first of them that cannot take the null of its property, and
otherwise has an assignment for each of them.

`Entity.UpdateOutcome` lists what may come of an update, without reference to how it is computed: an
entity without an identifier, a column that refuses null, an identifier without a value, or a
statement that writes the row of the instance (`Entity.UpdatesRow`). Exactly one of these is the
case and it is the outcome (`update_eq_iff`). The main statement is `Schema.mutate_update_iff`.
-/

set_option autoImplicit false

namespace EntityQuery

namespace Entity

/-! ## The columns of an update -/

/-- The columns that an update assigns: those that are no foreign keys. -/
def keylessColumns (entity : Entity) : List Column :=
  entity.columns.filter fun column => !column.isForeignKey

/-- Whether a property is null or undefined and its column does not allow null. -/
def cannotTake (instance_ : Instance) (column : Column) : Bool :=
  ((instance_.property column.property).getD .null).isNull && !column.nullable

/-- Why the columns cannot all be assigned: the first that cannot take the value of its property. -/
def refusal? (entity : Entity) (columns : List Column) (instance_ : Instance) :
    Option MappingError :=
  (columns.find? (cannotTake instance_)).map fun column =>
    .nullNotAllowed entity.name column.property

/-- The assignment of a property to its column. -/
def assigned (instance_ : Instance) (column : Column) : Sql.Assignment :=
  ⟨column.columnName, column.literal ((instance_.property column.property).getD .null)⟩

/-- The update of an instance that assigns these columns. -/
def updateOf (entity : Entity) (identifier : Column) (columns : List Column)
    (instance_ : Instance) : Except MappingError Sql.Update :=
  match entity.refusal? columns instance_ with
  | some problem => .error problem
  | none =>
    (entity.identifierValue identifier instance_).map fun value =>
      { table := entity.table
        assignments := columns.map (assigned instance_)
        condition := .assignment (bareColumn identifier) value }

/-- Assigning columns one after another fails for the first that cannot take its value. -/
theorem mapM_assignment (entity : Entity) (instance_ : Instance) (columns : List Column) :
    columns.mapM (entity.assignment instance_) =
      match entity.refusal? columns instance_ with
      | some problem => .error problem
      | none => .ok (columns.map (assigned instance_)) := by
  induction columns with
  | nil => rfl
  | cons column rest ih =>
      rw [List.mapM_cons, ih]
      cases refused : cannotTake instance_ column with
      | true =>
          have fails : entity.assignment instance_ column =
              .error (.nullNotAllowed entity.name column.property) := if_pos refused
          simp only [refusal?, List.find?_cons_of_pos refused, Option.map_some, fails]
          rfl
      | false =>
          have kept : ¬ cannotTake instance_ column = true := by simp [refused]
          have succeeds : entity.assignment instance_ column = .ok (assigned instance_ column) :=
            if_neg kept
          rw [succeeds, refusal?, refusal?, List.find?_cons_of_neg kept]
          cases rest.find? (cannotTake instance_) <;> rfl

/-- An update assigns the columns that are no foreign keys. -/
theorem update_eq {entity : Entity} {identifier : Column}
    (identified : entity.identifierColumn? = some identifier) (instance_ : Instance) :
    entity.update instance_ = entity.updateOf identifier entity.keylessColumns instance_ := by
  unfold update updateOf
  rw [identified]
  change (entity.keylessColumns.mapM (entity.assignment instance_) >>= _) = _
  rw [mapM_assignment]
  cases entity.refusal? entity.keylessColumns instance_ with
  | some problem => rfl
  | none => cases entity.identifierValue identifier instance_ <;> rfl

variable {entity : Entity} {instance_ : Instance} {identifier column : Column}
  {problem : MappingError}

theorem mem_keylessColumns :
    column ∈ entity.keylessColumns ↔ column ∈ entity.columns ∧ column.reference? = none := by
  simp [keylessColumns, Column.isForeignKey]

theorem cannotTake_iff :
    cannotTake instance_ column = true ↔
      instance_.Lacks column.property ∧ column.nullable = false := by
  rw [cannotTake, Bool.and_eq_true, Bool.not_eq_true', Instance.lacks_iff]

/-! ## The identifier -/

/-- The column that identifies an instance is one of the identifier. -/
theorem identifier?_of_identifierColumn? (identified : entity.identifierColumn? = some column) :
    entity.identifier? = some column.property := by
  obtain ⟨property, named, found⟩ := Option.bind_eq_some_iff.mp identified
  rw [named, property_of_column? found]

/-- An entity in order that has an identifier has a column for it. -/
theorem WellFormed.exists_identifierColumn? (ordered : entity.WellFormed) {property : String}
    (named : entity.identifier? = some property) :
    ∃ column, entity.identifierColumn? = some column ∧ column.property = property := by
  cases identified : entity.identifierColumn? with
  | none =>
      rw [ordered.unidentified identified] at named
      cases named
  | some column =>
      rw [identifier?_of_identifierColumn? identified] at named
      exact ⟨column, rfl, Option.some.inj named⟩

theorem identifierValue_of_lacks (lacks : instance_.Lacks identifier.property) :
    entity.identifierValue identifier instance_ = .error (.missingIdentifierValue entity.name) := by
  unfold identifierValue
  rcases lacks with undefined | ⟨value, found, isNull⟩
  · rw [undefined]
  · rw [found]
    exact if_pos isNull

theorem identifierValue_of_not_lacks (valued : ¬ instance_.Lacks identifier.property) :
    entity.identifierValue identifier instance_ =
      .ok (identifier.literal ((instance_.property identifier.property).getD .null)) := by
  unfold identifierValue
  rw [Instance.lacks_iff] at valued
  cases found : instance_.property identifier.property with
  | none => simp [found, Value.isNull] at valued
  | some value =>
      rw [found] at valued
      exact if_neg valued

theorem identifierValue_fault
    (fails : entity.identifierValue identifier instance_ = .error problem) :
    instance_.Lacks identifier.property ∧ problem = .missingIdentifierValue entity.name := by
  by_cases lacks : instance_.Lacks identifier.property
  · rw [identifierValue_of_lacks lacks] at fails
    cases fails
    exact ⟨lacks, rfl⟩
  · rw [identifierValue_of_not_lacks lacks] at fails
    cases fails

end Entity

/-! ## What may come of an update -/

/-- A column refuses an update of an instance: it is no foreign key and does not allow null, and its
property is null or undefined. -/
structure Column.Refuses (column : Column) (instance_ : Instance) : Prop where
  keyless : column.reference? = none
  strict : column.nullable = false
  lacks : instance_.Lacks column.property

/-- An assignment of an update has the name of a column in its table and what the column writes for
its property. -/
structure Assigns (instance_ : Instance) (column : Column)
    (assignment : Sql.Assignment) : Prop where
  name : assignment.column = column.columnName
  value : column.Inlines instance_ assignment.value

namespace Entity

/-- A statement updates the row of an instance: it assigns the columns that are no foreign keys, in
the order of the entity, where the column of the identifier has what it writes for the identifier.
-/
structure UpdatesRow (entity : Entity) (instance_ : Instance) (identifier : Column)
    (statement : Sql.Update) : Prop where
  table : statement.table = entity.table
  assignments : List.Forall₂ (Assigns instance_) entity.keylessColumns statement.assignments
  condition : ∃ value, identifier.Inlines instance_ value ∧
    statement.condition = .assignment (bareColumn identifier) value

/-- What may come of an update. -/
inductive UpdateOutcome (entity : Entity) (instance_ : Instance) :
    Except MappingError Sql.Update → Prop where
  | unidentified (unnamed : entity.identifier? = none) :
      UpdateOutcome entity instance_ (.error (.missingIdentifier entity.name))
  /-- The first column that refuses the update is reported. -/
  | refused {column : Column} (named : entity.identifier? ≠ none)
      (first : IsFirst (fun other => other.Refuses instance_) entity.columns column) :
      UpdateOutcome entity instance_ (.error (.nullNotAllowed entity.name column.property))
  | unvalued {property : String} (named : entity.identifier? = some property)
      (accepted : ∀ column ∈ entity.columns, ¬ column.Refuses instance_)
      (lacks : instance_.Lacks property) :
      UpdateOutcome entity instance_ (.error (.missingIdentifierValue entity.name))
  | updated {identifier : Column} {statement : Sql.Update}
      (identified : entity.identifierColumn? = some identifier)
      (accepted : ∀ column ∈ entity.columns, ¬ column.Refuses instance_)
      (valued : ¬ instance_.Lacks identifier.property)
      (updates : entity.UpdatesRow instance_ identifier statement) :
      UpdateOutcome entity instance_ (.ok statement)

variable {entity : Entity} {instance_ : Instance} {identifier column : Column}
  {problem : MappingError} {statement : Sql.Update}

theorem refuses_iff :
    column.Refuses instance_ ↔ (!column.isForeignKey) = true ∧
      cannotTake instance_ column = true := by
  have keyless : (!column.isForeignKey) = true ↔ column.reference? = none := by
    simp [Column.isForeignKey]
  rw [keyless, cannotTake_iff]
  constructor
  · intro refuses
    exact ⟨refuses.keyless, refuses.lacks, refuses.strict⟩
  · rintro ⟨keyless, lacks, strict⟩
    exact ⟨keyless, strict, lacks⟩

/-- The columns of an update cannot all be assigned if one of the entity refuses it, the first of
which is reported. -/
theorem refusal?_eq_some_iff :
    entity.refusal? entity.keylessColumns instance_ = some problem ↔
      ∃ column, IsFirst (fun other => other.Refuses instance_) entity.columns column ∧
        .nullNotAllowed entity.name column.property = problem := by
  simp only [refusal?, keylessColumns, List.find?_filter, Option.map_eq_some_iff,
    find?_eq_some_iff_isFirst, decide_eq_true_eq, ← refuses_iff]

theorem refusal?_eq_none_iff :
    entity.refusal? entity.keylessColumns instance_ = none ↔
      ∀ column ∈ entity.columns, ¬ column.Refuses instance_ := by
  simp only [refusal?, keylessColumns, List.find?_filter, Option.map_eq_none_iff,
    List.find?_eq_none, decide_eq_true_eq, ← refuses_iff]

theorem assigns_iff (column : Column) (assignment : Sql.Assignment) :
    Assigns instance_ column assignment ↔ assigned instance_ column = assignment := by
  obtain ⟨name, value⟩ := assignment
  constructor
  · rintro ⟨rfl, inlines⟩
    rw [assigned, Column.inlines_iff.mp inlines]
  · intro same
    cases same
    exact ⟨rfl, Column.inlines_iff.mpr rfl⟩

/-- One statement updates the row of an instance. -/
theorem updatesRow_iff :
    entity.UpdatesRow instance_ identifier statement ↔
      statement =
        { table := entity.table
          assignments := entity.keylessColumns.map (assigned instance_)
          condition := .assignment (bareColumn identifier)
            (identifier.literal ((instance_.property identifier.property).getD .null)) } := by
  have assigning : ∀ {assignments},
      List.Forall₂ (Assigns instance_) entity.keylessColumns assignments ↔
      entity.keylessColumns.map (assigned instance_) = assignments :=
    forall₂_iff_map_eq assigns_iff
  obtain ⟨table, assignments, condition⟩ := statement
  constructor
  · rintro ⟨rfl, assigned, value, inlines, rfl⟩
    rw [Column.inlines_iff.mp inlines, assigning.mp assigned]
  · intro same
    cases same
    exact ⟨rfl, assigning.mpr rfl, _, Column.inlines_iff.mpr rfl, rfl⟩

/-- What comes of an update is one of the outcomes. -/
theorem update_outcome (ordered : entity.WellFormed) (instance_ : Instance) :
    entity.UpdateOutcome instance_ (entity.update instance_) := by
  cases identified : entity.identifierColumn? with
  | none =>
      rw [update, identified]
      exact .unidentified (ordered.unidentified identified)
  | some identifier =>
      have named := identifier?_of_identifierColumn? identified
      rw [update_eq identified, updateOf]
      cases refused : entity.refusal? entity.keylessColumns instance_ with
      | some problem =>
          obtain ⟨column, first, rfl⟩ := refusal?_eq_some_iff.mp refused
          exact .refused (by simp [named]) first
      | none =>
          have accepted := refusal?_eq_none_iff.mp refused
          by_cases lacks : instance_.Lacks identifier.property
          · rw [identifierValue_of_lacks lacks]
            exact .unvalued named accepted lacks
          · rw [identifierValue_of_not_lacks lacks]
            exact .updated identified accepted lacks (updatesRow_iff.mpr rfl)

/-- **The outcome of an update** is the one of the four cases that holds. -/
theorem update_eq_iff (ordered : entity.WellFormed) {outcome : Except MappingError Sql.Update} :
    entity.update instance_ = outcome ↔ entity.UpdateOutcome instance_ outcome := by
  constructor
  · rintro rfl
    exact update_outcome ordered instance_
  · intro outcome
    cases outcome with
    | unidentified unnamed => rw [update, identifierColumn?, unnamed, Option.bind_none]
    | refused named first =>
        obtain ⟨property, named⟩ := Option.ne_none_iff_exists'.mp named
        obtain ⟨identifier, identified, -⟩ := ordered.exists_identifierColumn? named
        rw [update_eq identified, updateOf, refusal?_eq_some_iff.mpr ⟨_, first, rfl⟩]
    | unvalued named accepted lacks =>
        obtain ⟨identifier, identified, rfl⟩ := ordered.exists_identifierColumn? named
        rw [update_eq identified, updateOf, refusal?_eq_none_iff.mpr accepted,
          identifierValue_of_lacks lacks]
        rfl
    | updated identified accepted valued updates =>
        rw [update_eq identified, updateOf, refusal?_eq_none_iff.mpr accepted,
          identifierValue_of_not_lacks valued, updatesRow_iff.mp updates]
        rfl

/-- A statement that updates a row finds it by the text that the column of the identifier writes,
and that text is assigned to the column, if any is. -/
theorem UpdatesRow.finds (updates : entity.UpdatesRow instance_ identifier statement)
    (member : identifier ∈ entity.columns) :
    ∃ text, identifier.Writes (instance_.property identifier.property) text ∧
      statement.condition.render = identifier.columnName ++ "=" ++ text ∧
      (identifier.reference? = none →
        ⟨identifier.columnName, .literal text⟩ ∈ statement.assignments) ∧
      ∀ assignment, Assigns instance_ identifier assignment → assignment.value = .literal text := by
  obtain ⟨_, ⟨text, writes, rfl⟩, condition⟩ := updates.condition
  refine ⟨text, writes, by rw [condition]; rfl, fun keyless => ?_, fun assignment assigns => ?_⟩
  · rw [updatesRow_iff.mp updates]
    refine List.mem_map.mpr ⟨identifier, mem_keylessColumns.mpr ⟨member, keyless⟩, ?_⟩
    rw [assigned, Column.writes_iff.mp writes]
  · obtain ⟨other, writesToo, value⟩ := assigns.value
    rw [value, writesToo.unique writes]

end Entity

namespace Schema

/-- **An update of an instance** fails for an entity without an identifier, or else for the first
column that refuses it, or else if the identifier has no value, and otherwise is answered by a
statement that assigns every column that is no foreign key and finds the row by its identifier. What
the condition compares the identifier with is what the statement assigns to its column, unless that
is a foreign key. -/
theorem mutate_update_iff {schema : Schema} {instance_ : Instance} {entity : Entity}
    (registered : schema.lookup instance_.entity = some entity) :
    (∀ answer, schema.mutate .update instance_ = answer ↔
      ∃ outcome, entity.UpdateOutcome instance_ outcome ∧ Sql.Update.render <$> outcome = answer) ∧
    ∀ statement, entity.UpdateOutcome instance_ (.ok statement) →
      ∃ identifier text, entity.identifierColumn? = some identifier ∧
        identifier.Writes (instance_.property identifier.property) text ∧
        statement.condition.render = identifier.columnName ++ "=" ++ text ∧
        (identifier.reference? = none →
          ⟨identifier.columnName, .literal text⟩ ∈ statement.assignments) ∧
        ∀ assignment, Assigns instance_ identifier assignment →
          assignment.value = .literal text := by
  have ordered := wellFormed_of_lookup registered
  have answered : schema.mutate .update instance_ =
      Sql.Update.render <$> entity.update instance_ := by
    rw [mutate, registered]
  refine ⟨fun answer => ?_, fun statement outcome => ?_⟩
  · rw [answered]
    constructor
    · rintro rfl
      exact ⟨entity.update instance_, Entity.update_outcome ordered instance_, rfl⟩
    · rintro ⟨outcome, isOutcome, rfl⟩
      rw [(Entity.update_eq_iff ordered).mpr isOutcome]
  · cases outcome with
    | @updated identifier _ identified _ _ updates =>
        obtain ⟨property, -, found⟩ := Option.bind_eq_some_iff.mp identified
        obtain ⟨text, finds⟩ := updates.finds (Entity.mem_of_column? found)
        exact ⟨identifier, text, identified, finds⟩

/-- The described area keeps its parent, which is a foreign key. Without its number it is not
updated, for the column of the number does not allow null. -/
theorem mutate_update_iff_area :
    Sample.schema.lookup "Area" = some Sample.area ∧
      (∃ outcome, Sample.area.UpdateOutcome Sample.described outcome ∧
        Sql.Update.render <$> outcome = .ok "update t_area set id=7,name=null where id=7") ∧
      ∃ outcome, Sample.area.UpdateOutcome (.ofFields "Area" [("name", some .null)]) outcome ∧
        Sql.Update.render <$> outcome = .error (.nullNotAllowed "Area" "id") := by
  have registered : Sample.schema.lookup "Area" = some Sample.area := by decide
  have updated : Sample.schema.mutate .update Sample.described =
      .ok "update t_area set id=7,name=null where id=7" := by
    decide
  have refused : Sample.schema.mutate .update (.ofFields "Area" [("name", some .null)]) =
      .error (.nullNotAllowed "Area" "id") := by
    decide
  exact ⟨registered, ((mutate_update_iff registered).1 _).mp updated,
    ((mutate_update_iff registered).1 _).mp refused⟩

end Schema

end EntityQuery

import EntityQuery.Proofs.LooseKeys.Schema
import EntityQuery.Proofs.Mutations.Updates
import EntityQuery.Proofs.Text.Joined
import Mathlib.Data.List.Basic

/-!
# Mutations of instances with loose keys

An insert and a delete are the same over a schema and over its plain form (`insert_plain`,
`delete_plain`). An update leaves out all foreign keys, the loose ones too, but the plain form of an
entity has these among its ordinary columns. So the two updates are one statement over two lists of
columns (`updateOf`). Where it does not fail, it has an assignment for each column, which shows in
its text.

The main statement is `mutate_looseKeys_ordinary_iff`: which mutations treat a loose key as an
ordinary column, and over which schemas all of them do.
-/

set_option autoImplicit false

namespace EntityQuery

namespace Entity

/-! ## The columns of an update -/

/-- The columns that lead along no relation. -/
def ordinaryColumns (entity : Entity) : List Column :=
  entity.columns.filter fun column => (entity.hop? column).isNone

/-- The loose keys among the columns. -/
def looseKeys (entity : Entity) : List Column :=
  entity.columns.filter entity.isLoose

/-- An ordinary column is a loose key or no foreign key. -/
theorem isNone_hop? (entity : Entity) (column : Column) :
    (entity.hop? column).isNone = (!column.isForeignKey || entity.isLoose column) := by
  unfold hop? isLoose
  cases column.isForeignKey <;> rfl

/-- The ordinary columns are the columns that an update assigns and the loose keys. -/
theorem ordinaryColumns_perm (entity : Entity) :
    entity.ordinaryColumns.Perm (entity.keylessColumns ++ entity.looseKeys) := by
  have keyless : entity.ordinaryColumns.filter (fun column => !column.isForeignKey) =
      entity.keylessColumns := by
    rw [ordinaryColumns, keylessColumns, List.filter_filter]
    refine List.filter_congr fun column _ => ?_
    rw [isNone_hop?]
    cases column.isForeignKey <;> rfl
  have loose : entity.ordinaryColumns.filter (fun column => !!column.isForeignKey) =
      entity.looseKeys := by
    rw [ordinaryColumns, looseKeys, List.filter_filter]
    refine List.filter_congr fun column _ => ?_
    rw [isNone_hop?, isLoose]
    cases column.isForeignKey <;> rfl
  rw [← keyless, ← loose]
  exact (List.filter_append_perm _ _).symm

/-- Without loose keys an update assigns all ordinary columns. -/
theorem ordinaryColumns_of_looseKeys {entity : Entity} (none_loose : entity.looseKeys = []) :
    entity.ordinaryColumns = entity.keylessColumns := by
  refine List.filter_congr fun column member => ?_
  rw [isNone_hop?, eq_false_of_ne_true (List.filter_eq_nil_iff.mp none_loose column member),
    Bool.or_false]

/-- The columns that an update of the plain form assigns are the ordinary columns. -/
theorem keylessColumns_plain (entity : Entity) :
    entity.plain.keylessColumns = entity.ordinaryColumns.map entity.plainColumn := by
  rw [keylessColumns, plain_columns, List.filter_map, ordinaryColumns]
  refine congrArg _ (List.filter_congr fun column _ => ?_)
  rw [Function.comp_apply, isForeignKey_plainColumn, hop?]
  cases column.isForeignKey <;> cases entity.relation? column.property <;> rfl

/-! ## Mutations of the plain form -/

theorem literal_plainColumn (entity : Entity) (column : Column) (value : Value) :
    (entity.plainColumn column).literal value = column.literal value := by
  obtain ⟨_, same⟩ := entity.plainColumn_eq column
  rw [same]
  rfl

theorem identifierValue_plain (entity : Entity) (identifier : Column) (instance_ : Instance) :
    entity.plain.identifierValue (entity.plainColumn identifier) instance_ =
      entity.identifierValue identifier instance_ := by
  simp only [identifierValue, plainColumn_property, literal_plainColumn, plain_name]

theorem bareColumn_plainColumn (entity : Entity) (column : Column) :
    bareColumn (entity.plainColumn column) = bareColumn column := by
  rw [bareColumn, plainColumn_columnName]
  rfl

theorem assigned_plainColumn (entity : Entity) (instance_ : Instance) (column : Column) :
    assigned instance_ (entity.plainColumn column) = assigned instance_ column := by
  simp only [assigned, plainColumn_columnName, plainColumn_property, literal_plainColumn]

theorem refusal?_plain (entity : Entity) (columns : List Column) (instance_ : Instance) :
    entity.plain.refusal? (columns.map entity.plainColumn) instance_ =
      entity.refusal? columns instance_ := by
  have same : cannotTake instance_ ∘ entity.plainColumn = cannotTake instance_ := by
    funext column
    obtain ⟨_, same⟩ := entity.plainColumn_eq column
    rw [Function.comp_apply, same]
    rfl
  rw [refusal?, refusal?, List.find?_map, same, Option.map_map]
  simp only [Function.comp_def, plainColumn_property, plain_name]

theorem updateOf_plain (entity : Entity) (identifier : Column) (columns : List Column)
    (instance_ : Instance) :
    entity.plain.updateOf (entity.plainColumn identifier)
      (columns.map entity.plainColumn) instance_ =
      entity.updateOf identifier columns instance_ := by
  simp only [updateOf, refusal?_plain, identifierValue_plain, bareColumn_plainColumn, plain_table,
    List.map_map, Function.comp_def, assigned_plainColumn]

/-- An update of the plain form assigns the ordinary columns. -/
theorem update_plain {entity : Entity} {identifier : Column}
    (identified : entity.identifierColumn? = some identifier) (instance_ : Instance) :
    entity.plain.update instance_ =
      entity.updateOf identifier entity.ordinaryColumns instance_ := by
  have identifiedToo : entity.plain.identifierColumn? = some (entity.plainColumn identifier) := by
    rw [identifierColumn?_plain, identified]
    rfl
  rw [update_eq identifiedToo, keylessColumns_plain, updateOf_plain]

theorem addColumn_plainColumn (entity : Entity) (instance_ : Instance)
    (row : List String × List Sql.Expr) (column : Column) :
    addColumn instance_ row (entity.plainColumn column) = addColumn instance_ row column := by
  simp only [addColumn, plainColumn_property, plainColumn_columnName, literal_plainColumn]

/-- **An insert writes the loose keys like ordinary columns.** -/
theorem insert_plain (entity : Entity) (instance_ : Instance) :
    entity.plain.insert instance_ = entity.insert instance_ := by
  simp only [insert, plain_columns, plain_table, List.foldl_map, addColumn_plainColumn]

/-- **A delete is the same over the plain form.** -/
theorem delete_plain (entity : Entity) (instance_ : Instance) :
    entity.plain.delete instance_ = entity.delete instance_ := by
  unfold delete
  rw [identifierColumn?_plain]
  cases entity.identifierColumn? with
  | none => rfl
  | some identifier =>
      simp only [Option.map_some, identifierValue_plain, bareColumn_plainColumn, plain_table]

/-! ## Where the updates agree -/

/-- More columns than an update assigns have a longer text. -/
theorem looseKeys_of_rendered {entity : Entity} {instance_ : Instance} {condition : Sql.Expr}
    (same :
      Sql.Update.render
          ⟨entity.table, entity.ordinaryColumns.map (assigned instance_), condition⟩ =
        Sql.Update.render
          ⟨entity.table, entity.keylessColumns.map (assigned instance_), condition⟩) :
    entity.looseKeys = [] := by
  let texts (columns : List Column) : List String :=
    (columns.map (assigned instance_)).map Sql.Assignment.render
  have lengths : textLength (texts entity.ordinaryColumns) - 1 =
      textLength (texts entity.keylessColumns) - 1 := by
    simp only [Sql.Update.render, String.append_left_inj, String.append_right_inj] at same
    rw [← length_intercalate, ← length_intercalate]
    exact congrArg String.length same
  have parted : textLength (texts entity.ordinaryColumns) =
      textLength (texts entity.keylessColumns) + textLength (texts entity.looseKeys) := by
    have permuted := ((entity.ordinaryColumns_perm.map (assigned instance_)).map
      Sql.Assignment.render).map fun part => part.length + 1
    simpa only [textLength, texts, List.map_append, List.sum_append] using permuted.sum_nat
  cases keys : entity.looseKeys with
  | nil => rfl
  | cons key rest =>
      -- The text of an assignment has at least its equals sign.
      have equals : 0 < (assigned instance_ key).render.length := by
        have sign : "=".length = 1 := rfl
        rw [Sql.Assignment.render, String.length_append, String.length_append, sign]
        omega
      have long : 2 ≤ textLength (texts entity.looseKeys) := by
        simp only [keys, texts, textLength, List.map_cons, List.sum_cons]
        omega
      omega

/-- An update treats the loose keys of an entity like ordinary columns: the same column is the first
that cannot take its value, with the loose keys and without them, and a row is updated only if there
are no loose keys. -/
structure UpdatesPlainly (entity : Entity) (identifier : Column) (instance_ : Instance) : Prop where
  refusals : entity.refusal? entity.ordinaryColumns instance_ =
    entity.refusal? entity.keylessColumns instance_
  looseKeys : entity.refusal? entity.ordinaryColumns instance_ = none →
    ∀ value, entity.identifierValue identifier instance_ = .ok value → entity.looseKeys = []

theorem updatesPlainly_of_looseKeys {entity : Entity} (noneLoose : entity.looseKeys = [])
    (identifier : Column) (instance_ : Instance) : entity.UpdatesPlainly identifier instance_ where
  refusals := by rw [ordinaryColumns_of_looseKeys noneLoose]
  looseKeys _ _ _ := noneLoose

/-- The ordinary columns are more, so if they can all be assigned, so can the others. -/
theorem refusal?_keylessColumns {entity : Entity} {instance_ : Instance}
    (assignable : entity.refusal? entity.ordinaryColumns instance_ = none) :
    entity.refusal? entity.keylessColumns instance_ = none := by
  simp only [refusal?, Option.map_eq_none_iff, List.find?_eq_none] at assignable ⊢
  exact fun column member => assignable column
    (entity.ordinaryColumns_perm.mem_iff.mpr (List.mem_append_left _ member))

/-- An update fails as a column that cannot take its value does only if its own columns have such a
one: a missing identifier is reported in other words. -/
theorem updateOf_eq_error_iff {entity : Entity} {columns others : List Column}
    {instance_ : Instance} {problem : MappingError}
    (refused : entity.refusal? others instance_ = some problem) (identifier : Column) :
    entity.updateOf identifier columns instance_ = .error problem ↔
      entity.refusal? columns instance_ = some problem := by
  obtain ⟨column, -, rfl⟩ := Option.map_eq_some_iff.mp refused
  have identifierFails : entity.identifierValue identifier instance_ ≠
      .error (.nullNotAllowed entity.name column.property) := by
    unfold identifierValue
    split
    · split <;> simp
    · simp
  unfold updateOf
  cases entity.refusal? columns instance_ with
  | some other => simp
  | none => exact ⟨fun fails => absurd (error_of_shown fails) identifierFails, nofun⟩

/-- **Where the texts of the two updates agree.** -/
theorem update_plain_eq_iff {entity : Entity} {identifier : Column}
    (identified : entity.identifierColumn? = some identifier) (instance_ : Instance) :
    Sql.Update.render <$> entity.plain.update instance_ =
      Sql.Update.render <$> entity.update instance_ ↔
      entity.UpdatesPlainly identifier instance_ := by
  rw [update_plain identified, update_eq identified]
  cases ordinary : entity.refusal? entity.ordinaryColumns instance_ with
  | some problem =>
      rw [(updateOf_eq_error_iff ordinary identifier).mpr ordinary]
      constructor
      · intro same
        have failsToo := (updateOf_eq_error_iff ordinary identifier).mp (error_of_shown same.symm)
        exact ⟨by rw [ordinary, failsToo], by simp [ordinary]⟩
      · intro plainly
        rw [(updateOf_eq_error_iff ordinary identifier).mpr (plainly.refusals ▸ ordinary)]
  | none =>
      have keyless := refusal?_keylessColumns ordinary
      simp only [updateOf, ordinary, keyless]
      constructor
      · intro same
        refine ⟨by rw [ordinary, keyless], fun _ value valued => ?_⟩
        rw [valued] at same
        exact looseKeys_of_rendered (Except.ok.inj same)
      · intro plainly
        cases valued : entity.identifierValue identifier instance_ with
        | error problem => rfl
        | ok value => rw [ordinaryColumns_of_looseKeys (plainly.looseKeys ordinary value valued)]

end Entity

namespace Schema

variable {schema : Schema}

/-- **A mutation treats the loose keys like ordinary columns** unless it is an update that passes
over some. -/
theorem mutate_plain_eq_iff (mutation : Mutation) (instance_ : Instance) :
    schema.plain.mutate mutation instance_ = schema.mutate mutation instance_ ↔
      (mutation = .update → ∀ entity identifier, schema.lookup instance_.entity = some entity →
        entity.identifierColumn? = some identifier →
          entity.UpdatesPlainly identifier instance_) := by
  unfold mutate
  rw [lookup_plain]
  cases found : schema.lookup instance_.entity with
  | none => simp
  | some entity =>
      cases mutation with
      | insert => simp [Entity.insert_plain]
      | delete => simp [Entity.delete_plain]
      | update =>
          cases identified : entity.identifierColumn? with
          | none =>
              have same : entity.plain.update instance_ = entity.update instance_ := by
                rw [Entity.update, Entity.update, Entity.identifierColumn?_plain, identified]
                rfl
              refine ⟨fun _ _ other identifier foundToo identifiedToo => ?_, fun _ => ?_⟩
              · cases foundToo
                rw [identified] at identifiedToo
                cases identifiedToo
              · exact congrArg (Sql.Update.render <$> ·) same
          | some identifier =>
              refine (Entity.update_plain_eq_iff identified instance_).trans
                ⟨fun plainly _ other identifierToo foundToo identifiedToo => ?_, fun plainly => ?_⟩
              · cases foundToo
                rw [identified] at identifiedToo
                cases identifiedToo
                exact plainly
              · exact plainly rfl entity identifier rfl identified

/-- **A foreign key without a relation is an ordinary column for mutations** where no update passes
over it. Every insert and every delete is the same with the loose keys as ordinary columns; an
update is the same exactly if the first column that cannot take its value is, and if a row is
updated only where there are no loose keys. So all mutations are the same exactly if no entity with
an identifier has loose keys. -/
theorem mutate_looseKeys_ordinary_iff (schema : Schema) :
    (∀ mutation instance_,
      schema.plain.mutate mutation instance_ = schema.mutate mutation instance_ ↔
        (mutation = .update → ∀ entity identifier, schema.lookup instance_.entity = some entity →
          entity.identifierColumn? = some identifier →
            entity.UpdatesPlainly identifier instance_)) ∧
    ((∀ mutation instance_,
      schema.plain.mutate mutation instance_ = schema.mutate mutation instance_) ↔
        ∀ entity ∈ schema.entities, entity.identifierColumn?.isSome → entity.looseKeys = []) := by
  refine ⟨mutate_plain_eq_iff, fun same entity member identified => ?_,
    fun noneLoose mutation instance_ => ?_⟩
  · obtain ⟨identifier, identifies⟩ := Option.isSome_iff_exists.mp identified
    -- Where every property is zero, no column refuses its value, and the identifier has one.
    let zeros : Instance := ⟨entity.name, fun _ => some (.int 0)⟩
    have plainly : entity.UpdatesPlainly identifier zeros :=
      (mutate_plain_eq_iff .update zeros).mp (same .update zeros) rfl entity identifier
        (lookup_of_mem member) identifies
    have assignable : entity.refusal? entity.ordinaryColumns zeros = none := by
      simp [Entity.refusal?, Entity.cannotTake, zeros, Value.isNull]
    exact plainly.looseKeys assignable (identifier.literal (.int 0)) rfl
  · refine (mutate_plain_eq_iff mutation instance_).mpr
      fun _ entity identifier found identifies => ?_
    exact Entity.updatesPlainly_of_looseKeys
      (noneLoose entity (mem_of_lookup found) (Option.isSome_of_eq_some identifies))
        identifier instance_

end Schema

/-! ## A key that no update writes -/

namespace Sample

/-- Stalls keep the number of their area in a foreign key without a relation. -/
def stall : Entity where
  name := "Stall"
  table := "t_stall"
  identifier? := some "id"
  columns :=
    [⟨"id", none, .number, false, none⟩, ⟨"area", some "area_id", .number, true, some "id"⟩]
  relations := .empty

def stalls : Schema where
  entities := [stall]
  distinct := by decide
  wellFormed := by
    intro entity member
    rw [List.mem_singleton] at member
    exact Entity.validate_eq_ok_iff.mp (member ▸ rfl)

/-- The first stall, in the second area. -/
def firstStall : Instance :=
  .ofFields "Stall" [("id", some (.int 1)), ("area", some (.int 2))]

end Sample

/-- The area of a stall is inserted with it and never updated; as an ordinary column it would be. -/
theorem Schema.mutate_overlooksLooseKey :
    Sample.stalls.mutate .insert Sample.firstStall =
        .ok "insert into t_stall (id,area_id) values (1,2)" ∧
      Sample.stalls.mutate .update Sample.firstStall = .ok "update t_stall set id=1 where id=1" ∧
      Sample.stalls.plain.mutate .update Sample.firstStall =
        .ok "update t_stall set id=1,area_id=2 where id=1" ∧
      ¬ ∀ mutation instance_,
        Sample.stalls.plain.mutate mutation instance_ =
          Sample.stalls.mutate mutation instance_ := by
  have written : Sample.stalls.mutate .update Sample.firstStall =
      .ok "update t_stall set id=1 where id=1" := by decide
  have plainWritten : Sample.stalls.plain.mutate .update Sample.firstStall =
      .ok "update t_stall set id=1,area_id=2 where id=1" := by decide
  refine ⟨by decide, written, plainWritten, fun same => ?_⟩
  have impossible := same .update Sample.firstStall
  rw [written, plainWritten] at impossible
  exact absurd impossible (by decide)

end EntityQuery

import EntityQuery.Mapping.Mutation
import Mathlib.Data.List.Forall2

/-!
# What a column writes

What stands in a statement for a property depends on its value and on the kind of its column
(`Column.Writes`): `null` if the property is undefined or null, the text of its value between
quotation marks in a column of texts or dates, and the bare text in any other column. Whether the
column allows null does not matter. The literals of mutations are what their columns write
(`writes_iff`), so a list of such literals is determined by its columns (`forall₂_iff_map_eq`).
-/

set_option autoImplicit false

namespace EntityQuery

/-- A property of an instance is undefined or null. -/
def Instance.Lacks (instance_ : Instance) (property : String) : Prop :=
  instance_.property property = none ∨ ∃ value, instance_.property property = some value ∧
    value.isNull = true

theorem Instance.lacks_iff {instance_ : Instance} {property : String} :
    instance_.Lacks property ↔ ((instance_.property property).getD .null).isNull = true := by
  unfold Lacks
  cases instance_.property property with
  | none => simp [Value.isNull]
  | some value => simp

theorem Value.isNull_eq_true_iff {value : Value} : value.isNull = true ↔ value = .null := by
  cases value <;> simp [isNull]

namespace Column

/-- What a column writes for a property with a value, or for one that is undefined. -/
inductive Writes (column : Column) : Option Value → String → Prop where
  | undefined : Writes column none "null"
  | null : Writes column (some .null) "null"
  /-- Texts and dates are written between quotation marks, as they are. -/
  | quoted {value : Value} (valued : value ≠ .null)
      (kind : column.kind = .string ∨ column.kind = .date) :
      Writes column (some value) ("'" ++ value.text ++ "'")
  | bare {value : Value} (valued : value ≠ .null)
      (kind : column.kind = .number ∨ column.kind = .other) :
      Writes column (some value) value.text

theorem isQuoted_iff {column : Column} :
    column.kind.isQuoted = true ↔ column.kind = .string ∨ column.kind = .date := by
  cases column.kind <;> simp [ColumnKind.isQuoted]

theorem not_isQuoted_iff {column : Column} :
    ¬ column.kind.isQuoted = true ↔ column.kind = .number ∨ column.kind = .other := by
  cases column.kind <;> simp [ColumnKind.isQuoted]

theorem literal_null (column : Column) : column.literal .null = .literal "null" := rfl

theorem literal_quoted {column : Column} {value : Value} (valued : value ≠ .null)
    (kind : column.kind = .string ∨ column.kind = .date) :
    column.literal value = .literal ("'" ++ value.text ++ "'") := by
  have notNull : value.isNull = false := by
    rwa [← Bool.not_eq_true, Value.isNull_eq_true_iff]
  rw [literal, notNull, isQuoted_iff.mpr kind]
  rfl

theorem literal_bare {column : Column} {value : Value}
    (kind : column.kind = .number ∨ column.kind = .other) :
    column.literal value = .literal value.text := by
  rw [literal, Bool.eq_false_iff.mpr (not_isQuoted_iff.mpr kind), Bool.and_false]
  rfl

/-- **The literals of mutations are what their columns write.** -/
theorem writes_iff {column : Column} {value? : Option Value} {text : String} :
    column.Writes value? text ↔ column.literal (value?.getD .null) = .literal text := by
  constructor
  · intro writes
    cases writes with
    | undefined => exact literal_null column
    | null => exact literal_null column
    | quoted valued kind => exact literal_quoted valued kind
    | bare valued kind => exact literal_bare kind
  · intro written
    cases value? with
    | none =>
        obtain rfl : "null" = text := by simpa [literal_null] using written
        exact .undefined
    | some value =>
        rw [Option.getD_some] at written
        by_cases valued : value = .null
        · subst valued
          obtain rfl : "null" = text := by simpa [literal_null] using written
          exact .null
        · by_cases quoted : column.kind.isQuoted = true
          · have kind := isQuoted_iff.mp quoted
            rw [literal_quoted valued kind] at written
            cases written
            exact .quoted valued kind
          · have kind := not_isQuoted_iff.mp quoted
            rw [literal_bare kind] at written
            cases written
            exact .bare valued kind

/-- A column writes one text for a property. -/
theorem Writes.unique {column : Column} {value? : Option Value} {text other : String}
    (writes : column.Writes value? text) (writesToo : column.Writes value? other) :
    text = other := by
  have same := (writes_iff.mp writes).symm.trans (writes_iff.mp writesToo)
  exact Sql.Expr.literal.inj same

/-- Every literal of a mutation is a text. -/
theorem exists_writes (column : Column) (value? : Option Value) :
    ∃ text, column.Writes value? text := by
  have isText : ∃ text, column.literal (value?.getD .null) = .literal text := by
    unfold literal
    split
    · exact ⟨_, rfl⟩
    · exact ⟨_, rfl⟩
  obtain ⟨text, written⟩ := isText
  exact ⟨text, writes_iff.mpr written⟩

/-- An expression is the text that a column writes for its property of an instance. -/
def Inlines (instance_ : Instance) (column : Column) (value : Sql.Expr) : Prop :=
  ∃ text, column.Writes (instance_.property column.property) text ∧ value = .literal text

theorem inlines_iff {column : Column} {instance_ : Instance} {value : Sql.Expr} :
    column.Inlines instance_ value ↔
      column.literal ((instance_.property column.property).getD .null) = value := by
  constructor
  · rintro ⟨text, writes, rfl⟩
    exact writes_iff.mp writes
  · rintro rfl
    obtain ⟨text, writes⟩ := column.exists_writes (instance_.property column.property)
    exact ⟨text, writes, writes_iff.mp writes⟩

end Column

/-- Items each of which is related to its image only stand beside the list of their images. -/
theorem forall₂_iff_map_eq {α β : Type} {related : α → β → Prop} {image : α → β}
    (same : ∀ item result, related item result ↔ image item = result) {items : List α}
    {results : List β} :
    List.Forall₂ related items results ↔ items.map image = results := by
  obtain rfl : related = fun item result => image item = result :=
    funext₂ fun item result => propext (same item result)
  rw [← List.forall₂_map_left_iff, List.forall₂_eq_eq_eq]

end EntityQuery

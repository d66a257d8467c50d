import EntityQuery.Proofs.Json.Records
import EntityQuery.Proofs.Mutations.Dependence
import EntityQuery.Proofs.Mutations.Inserts
import EntityQuery.Proofs.Mutations.Updates
import EntityQuery.Proofs.Outcome

/-!
# Integers of records

An integer in the document of a record is a sequence of digits, becomes a number of the record, a
value of a property and the text of a literal, and is the same integer all the way if it fits 64
bits, with a sign or without one.

The tree of a document gives a property a node by the last member for it among the values of the
record (`Record.Gives`), and that node is what the property is read from (`Record.find?_of_gives`).
The value of an integer has its canonical form for its text (`Value.text_ofInteger`), and what a
column writes for a value stands in every statement for the instance: in an insert, in an update,
and where the row is found by it (`Schema.WritesFor`). The main statement is
`Schema.mutate_integer`.
-/

set_option autoImplicit false

namespace EntityQuery

open Json (Decoder LastMember Node Numeral)

/-! ## What the tree of a record gives -/

/-- The tree of a record, which is an object or the array of its fields, gives a property a node: it
is the last one for the property among the values. -/
inductive Record.Gives (property : String) (node : Node) : Node → Prop
  | object {members values : List (Option String × Node)} {whole valuesWhole : Bool}
      (listed : (some "values", .object values valuesWhole) ∈ members)
      (last : LastMember property node values) :
      Gives property node (.object members whole)
  | array {entity : Node} {values : List (Option String × Node)} {others : List Node}
      {whole valuesWhole : Bool}
      (last : LastMember property node values) :
      Gives property node (.array (entity :: .object values valuesWhole :: others) whole)

variable {depth : Nat} {property key : String} {node tree : Node} {record : Record}
  {draft next final : Record.Draft}

namespace Record

/-- The draft of a record has the values of a node. -/
def Draft.Took (depth : Nat) (node : Node) (draft : Draft) : Prop :=
  ∃ map, Decoder.dictionary Decoder.any depth node = .ok map ∧ draft.values? = some map

theorem Draft.took_of_read (stepped : Draft.read depth draft "values" node = .ok next) :
    next.Took depth node := by
  obtain ⟨map, decoded, ⟨⟩⟩ := ok_of_bind stepped
  unfold Decoder.once at decoded
  split at decoded
  · cases decoded
  · exact ⟨map, decoded, rfl⟩

/-- A draft that has its values keeps them, for they are read once at most. -/
theorem Draft.Took.of_read {other : Node} (took : draft.Took depth node)
    (stepped : Draft.read depth draft key other = .ok next) : next.Took depth node := by
  obtain ⟨map, decoded, has⟩ := took
  refine ⟨map, decoded, ?_⟩
  unfold Draft.read at stepped
  split at stepped
  · obtain ⟨_, _, ⟨⟩⟩ := ok_of_bind stepped
    exact has
  · rw [has] at stepped
    cases stepped
  · cases stepped
    exact has

theorem values_of_took (took : draft.Took depth node) (finishes : draft.finish = .ok record) :
    Decoder.dictionary Decoder.any depth node = .ok record.values := by
  obtain ⟨map, decoded, has⟩ := took
  obtain ⟨_, _, ⟨⟩⟩ := ok_of_bind finishes
  rw [has]
  exact decoded

/-- **The values of a record are those of the member or item that stands for them.** -/
theorem find?_of_gives {value : Json} (gives : Gives property node tree)
    (reads : ∀ depth, Node.toJson depth node = .ok value)
    (read : decoder (depth + 2) tree = .ok record) :
    record.values.find? property = some value := by
  cases gives with
  | @object members values whole valuesWhole listed last =>
      obtain ⟨final, folds, finishes⟩ := ok_of_bind read
      have took : final.Took (depth + 1) (.object values valuesWhole) := by
        obtain ⟨earlier, later, rfl⟩ := List.append_of_mem listed
        refine foldlM_settles _ folds (fun current next stepped => ?_)
          fun other _ current next stepped took => ?_
        · obtain ⟨_, ⟨⟩, stepped⟩ := ok_of_bind stepped
          exact Draft.took_of_read stepped
        · obtain ⟨_, _, stepped⟩ := ok_of_bind stepped
          exact took.of_read stepped
      have finished : final.finish = .ok record := by
        cases whole with
        | false => cases finishes
        | true => exact finishes
      exact Json.find?_of_lastMember last (reads depth) (values_of_took took finished)
  | @array entity values others whole valuesWhole last =>
      obtain ⟨final, folds, finishes⟩ := ok_of_bind read
      have took : final.Took (depth + 1) (.object values valuesWhole) := by
        -- Only the first two items stand for fields.
        have both : ([("entity", entity)] ++
            ("values", Node.object values valuesWhole) :: []).foldlM
            (fun (draft : Draft) field => Draft.read (depth + 1) draft field.1 field.2) {} =
              .ok final := folds
        exact foldlM_settles _ both (fun current next => Draft.took_of_read) nofun
      have finished : final.finish = .ok record := by
        split at finishes
        · split at finishes
          · next found =>
            cases finishes
            exact found
          · cases finishes
        · cases finishes
      exact Json.find?_of_lastMember last (reads depth) (values_of_took took finished)

end Record

/-! ## Integers of 64 bits -/

namespace Value

variable {integer : Int}

theorem ofInteger_signed (least : -2 ^ 63 ≤ integer) (small : integer < 2 ^ 63) :
    ∃ value : Int64, ofInteger integer = .int value ∧ value.toInt = integer := by
  refine ⟨Int64.ofInt integer, if_pos ?_, Int64.toInt_ofInt_of_le least small⟩
  simp only [Json.maxSigned]
  omega

theorem ofInteger_unsigned (large : 2 ^ 63 ≤ integer) (beyond : integer < 2 ^ 64) :
    ∃ value : UInt64, ofInteger integer = .uint value ∧ (value.toNat : Int) = integer := by
  have fits : integer.toNat < UInt64.size := by
    simp only [UInt64.size]
    omega
  refine ⟨UInt64.ofNat integer.toNat, if_neg ?_, ?_⟩
  · simp only [Json.maxSigned]
    omega
  · rw [UInt64.toNat_ofNat_of_lt' fits]
    omega

theorem isNull_ofInteger (integer : Int) : (ofInteger integer).isNull = false := by
  unfold ofInteger
  split <;> rfl

/-- The text of an integer of 64 bits is its canonical form. -/
theorem text_ofInteger (least : -2 ^ 63 ≤ integer) (beyond : integer < 2 ^ 64) :
    (ofInteger integer).text = toString integer := by
  by_cases small : integer < 2 ^ 63
  · obtain ⟨value, same, exact_⟩ := ofInteger_signed least small
    rw [same, text, exact_]
  · obtain ⟨value, same, exact_⟩ := ofInteger_unsigned (Int.not_lt.mp small) beyond
    rw [same, text, ← exact_]
    rfl

end Value

/-! ## In statements -/

/-- A record that gives the number of an area twice, the second time by the largest integer of 64
bits. -/
def Sample.largestArea : Json :=
  .object
    [("values", .object [("id", .ofInt 7), ("id", .ofInt 18446744073709551615)]),
      ("entity", .string "Area")]

theorem Sample.exact_largestArea : Sample.largestArea.Exact := by
  simp [Sample.largestArea, Json.Exact, Json.ExactMembers, Json.ofInt]

/-- The record that is read: the later of the two numbers holds. -/
def Sample.largestRecord : Record :=
  ⟨"Area", .ofList [("id", .ofInt 18446744073709551615)]⟩

namespace Schema

/-- The statements for an instance have this text for a column of its entity. -/
structure WritesFor (schema : Schema) (entity : Entity) (instance_ : Instance) (column : Column)
    (text : String) : Prop where
  /-- The insert, which never fails, has it as the value of the column. -/
  inserts : ∃ statement : Sql.Insert, schema.mutate .insert instance_ = .ok statement.render ∧
    entity.InsertsRow instance_ statement ∧
    (column.columnName, .literal text) ∈ statement.columns.zip statement.values
  /-- An update assigns it to the column, unless that is a foreign key. -/
  updates : ∀ answer, schema.mutate .update instance_ = .ok answer →
    ∃ identifier statement, answer = Sql.Update.render statement ∧
      entity.UpdatesRow instance_ identifier statement ∧
      (column.reference? = none → ⟨column.columnName, .literal text⟩ ∈ statement.assignments)
  /-- An update finds the row by it, if the column is the identifier's. -/
  updateFinds : entity.identifierColumn? = some column →
    (∀ other ∈ entity.columns, ¬ other.Refuses instance_) →
    ∃ statement, schema.mutate .update instance_ = .ok (Sql.Update.render statement) ∧
      entity.UpdatesRow instance_ column statement ∧
      statement.condition.render = column.columnName ++ "=" ++ text
  /-- A delete finds the row by it, if the column is the identifier's. -/
  deleteFinds : entity.identifierColumn? = some column →
    schema.mutate .delete instance_ =
      .ok ("delete from " ++ entity.table ++ " where " ++ (column.columnName ++ " = " ++ text))

variable {schema : Schema} {entity : Entity} {instance_ : Instance} {column : Column}
  {value : Value} {text : String}

/-- **What a column writes for a value is what the statements have for it.** -/
theorem writesFor_of_literal (registered : schema.lookup instance_.entity = some entity)
    (member : column ∈ entity.columns) (valued : instance_.property column.property = some value)
    (notNull : value.isNull = false) (literal : column.literal value = .literal text) :
    schema.WritesFor entity instance_ column text := by
  have ordered := wellFormed_of_lookup registered
  have present : ¬ instance_.Lacks column.property := by
    rw [Instance.lacks_iff, valued, Option.getD_some, notNull]
    exact Bool.false_ne_true
  have writes : column.Writes (instance_.property column.property) text := by
    rw [Column.writes_iff, valued]
    exact literal
  have updated : schema.mutate .update instance_ =
      Sql.Update.render <$> entity.update instance_ := by
    rw [mutate, registered]
  constructor
  case inserts =>
    refine ⟨entity.insert instance_, by rw [mutate, registered], Entity.insertsRow_iff.mpr rfl, ?_⟩
    rw [Entity.zip_insert]
    refine List.mem_filterMap.mpr ⟨column, member, ?_⟩
    rw [Entity.insertedPair?, valued, Option.map_some, literal]
  case updates =>
    intro answer answered
    rw [updated] at answered
    obtain ⟨statement, made, rfl⟩ := ok_of_map answered
    cases (Entity.update_eq_iff ordered).mp made with
    | @updated identifier _ identified accepted _ row =>
        refine ⟨identifier, statement, rfl, row, fun keyless => ?_⟩
        rw [Entity.updatesRow_iff.mp row]
        refine List.mem_map.mpr ⟨column, Entity.mem_keylessColumns.mpr ⟨member, keyless⟩, ?_⟩
        rw [Entity.assigned, Column.writes_iff.mp writes]
  case updateFinds =>
    intro identified accepted
    obtain ⟨statement, row⟩ : ∃ statement, entity.UpdatesRow instance_ column statement :=
      ⟨_, Entity.updatesRow_iff.mpr rfl⟩
    have made := (Entity.update_eq_iff ordered).mpr (.updated identified accepted present row)
    obtain ⟨other, writesToo, condition, -⟩ := row.finds member
    refine ⟨statement, by rw [updated, made]; rfl, row, ?_⟩
    rw [condition, writesToo.unique writes]
  case deleteFinds =>
    intro identified
    rw [mutate, registered]
    dsimp only
    rw [Entity.delete_eq identified, Entity.identifierValue_of_not_lacks present,
      Column.writes_iff.mp writes]
    rfl

/-- **Integers of records reach statements exactly.** If the tree of a record's document gives a
property what the canonical form of an integer of 64 bits is read as, the record has that integer,
as a value with a sign where it fits and without one otherwise, and the statements for the record
have the same canonical form for every column of numbers or of anything but texts and dates that
holds the property. No other integer has this form. -/
theorem mutate_integer {document : String} {record : Record} {integer : Int}
    (least : -2 ^ 63 ≤ integer) (beyond : integer < 2 ^ 64)
    (read : Record.ofDocument document = .ok record)
    (gives : Record.Gives column.property (Node.ofText (toString integer)).1
      (Node.ofText document).1)
      (registered : schema.lookup record.entity = some entity) (member : column ∈ entity.columns)
    (kind : column.kind = .number ∨ column.kind = .other) :
    record.values.find? column.property = some (.ofInt integer) ∧
      (integer < 2 ^ 63 → ∃ value : Int64,
        record.toInstance.property column.property = some (.int value) ∧ value.toInt = integer) ∧
      (2 ^ 63 ≤ integer → ∃ value : UInt64,
        record.toInstance.property column.property = some (.uint value) ∧
          (value.toNat : Int) = integer) ∧
      schema.WritesFor entity record.toInstance column (toString integer) ∧
      ∀ other : Int, -2 ^ 63 ≤ other → other < 2 ^ 64 →
        column.literal (.ofInteger other) = column.literal (.ofInteger integer) →
        other = integer := by
  rw [Json.ofText_integer] at gives
  have found : record.values.find? column.property = some (.ofInt integer) := by
    refine Record.find?_of_gives gives (fun depth => ?_) (Json.decodes_of_readDocument read)
    have number : (Numeral.ofInt integer).number? = some (.integer integer) := by
      refine Numeral.number?_ofInt ?_ ?_
      · simp only [Json.minSigned]
        omega
      · simp only [Json.maxUnsigned]
        omega
    rw [Node.toJson, number]
    rfl
  have valued : record.toInstance.property column.property = some (.ofInteger integer) :=
    congrArg (Option.map Value.ofJson) found
  have literal : ∀ other : Int, -2 ^ 63 ≤ other → other < 2 ^ 64 →
      column.literal (.ofInteger other) = .literal (toString other) := by
    intro other least beyond
    rw [Column.literal_bare kind, Value.text_ofInteger least beyond]
  refine ⟨found, fun small => ?_, fun large => ?_,
    writesFor_of_literal registered member valued (Value.isNull_ofInteger integer)
      (literal integer least beyond),
    fun other leastToo beyondToo same => ?_⟩
  · obtain ⟨value, isValue, exact_⟩ := Value.ofInteger_signed least small
    exact ⟨value, isValue ▸ valued, exact_⟩
  · obtain ⟨value, isValue, exact_⟩ := Value.ofInteger_unsigned large beyond
    exact ⟨value, isValue ▸ valued, exact_⟩
  · rw [literal other leastToo beyondToo, literal integer least beyond] at same
    exact Json.toString_int_inj (Sql.Expr.literal.inj same)

/-- The largest integer of 64 bits, as the identifier of an area whose record gives another one
before it. -/
theorem mutate_integer_largest :
    Record.ofDocument Sample.largestArea.compact = .ok Sample.largestRecord ∧
      Sample.schema.lookup "Area" = some Sample.area ∧
      Sample.schema.WritesFor Sample.area Sample.largestRecord.toInstance
        ⟨"id", none, .number, false, none⟩
        "18446744073709551615" ∧
      Sample.schema.mutate .delete Sample.largestRecord.toInstance =
        .ok "delete from t_area where id = 18446744073709551615" := by
  have registered : Sample.schema.lookup "Area" = some Sample.area := by decide
  have gives : Record.Gives "id" (Node.ofText (toString (18446744073709551615 : Int))).1
      (Node.ofText Sample.largestArea.compact).1 := by
    rw [Json.ofText_integer, Json.ofText_compact Sample.exact_largestArea]
    exact .object (.head _) ⟨[(some "id", .number (.ofInt 7))], [], rfl, nofun⟩
  have read : Record.ofDocument Sample.largestArea.compact = .ok Sample.largestRecord := by
    rw [Record.ofDocument, Json.readDocument, Json.ofText_compact Sample.exact_largestArea]
    rfl
  have identifier : ⟨"id", none, .number, false, none⟩ ∈ Sample.area.columns := .head _
  obtain ⟨-, -, -, writes, -⟩ :=
    mutate_integer (by decide) (by decide) read gives registered identifier (.inl rfl)
  exact ⟨read, registered, writes, writes.deleteFinds rfl⟩

end Schema

end EntityQuery

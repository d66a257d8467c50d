import EntityQuery.Schema.Document
import EntityQuery.Proofs.Json.Records
import EntityQuery.Proofs.Sample
import EntityQuery.Proofs.Schema.Registration

/-!
# Entities and their documents

An entity is written by many trees: an object may give the fields of an entity, of a column or of a
relation in any order and among others, and leave out those that have their defaults
(`Entity.WrittenAs`). Whatever writes an entity is read as that entity (`Entity.WrittenAs.reads`),
since every field of a draft is filled on its own, by the member that has its key. What is printed
of an entity is one of the trees that write it (`Entity.writtenAs_toJson`), though it leaves out
what is unset and gives all other fields in one order.

The main statement is `document_exact`: no entity is changed by being written and read, whether it
passes validation or not, and neither by what may be done to the document in between.
-/

set_option autoImplicit false

namespace EntityQuery

open Json (Decoder Fault Node Gathers WritesField Fills)

/-! ## What writes an entity -/

/-- A text or `null` writes a text that may be unset. -/
inductive WritesOptional : Option String → Node → Prop
  | unset : WritesOptional none .null
  | text (value : String) : WritesOptional (some value) (.string (some value))

/-- An object writes a column if it gives its fields in any order; all but the property may be left
out where they have their defaults. -/
inductive Column.WrittenAs (column : Column) : Node → Prop
  | record {members : List (String × Node)} {name? kind? nullable? reference? : Option Node}
      (gathers : Gathers
        [("property", some (.string (some column.property))), ("name", name?), ("type", kind?),
          ("nullable", nullable?), ("ref_name", reference?)] members)
      (name : WritesField none WritesOptional column.name? name?)
      (kind : WritesField .other (fun kind node => node = .string (some kind.name))
        column.kind kind?)
      (nullable : WritesField true (fun flag node => node = .bool flag) column.nullable nullable?)
      (reference : WritesField none WritesOptional column.reference? reference?) :
      WrittenAs column (.record members)

/-- An object writes a relation if it gives its fields in any order; all but the entity may be left
out where they have their defaults. -/
inductive Relation.WrittenAs (relation : Relation) : Node → Prop
  | record {members : List (String × Node)} {eager? multiplicity? : Option Node}
      (gathers : Gathers
        [("entity", some (.string (some relation.entity))), ("eager", eager?),
          ("kind", multiplicity?)] members)
      (eager : WritesField false (fun flag node => node = .bool flag) relation.eager eager?)
      (multiplicity : WritesField .manyToOne (fun kind node => node = .string (some kind.name))
        relation.multiplicity multiplicity?) :
      WrittenAs relation (.record members)

/-- An array writes a list of columns item by item. -/
inductive WritesColumns (columns : List Column) : Node → Prop
  | array {nodes : List Node} (items : List.Forall₂ Column.WrittenAs columns nodes) :
      WritesColumns columns (.array nodes true)

/-- An object writes relations under their properties in any order. -/
inductive WritesRelations (relations : Dictionary Relation) : Node → Prop
  | record {entries : List (String × Relation)} {members : List (String × Node)}
      (order : entries.Perm relations.entries)
      (written : List.Forall₂
        (fun entry member => member.1 = entry.1 ∧ Relation.WrittenAs entry.2 member.2)
        entries members) :
      WritesRelations relations (.record members)

/-- An object writes an entity if it gives its fields in any order; the identifier, the columns and
the relations may be left out where there are none. -/
inductive Entity.WrittenAs (entity : Entity) : Node → Prop
  | record {members : List (String × Node)} {identifier? columns? relations? : Option Node}
      (gathers : Gathers
        [("name", some (.string (some entity.name))), ("table", some (.string (some entity.table))),
          ("id", identifier?), ("columns", columns?), ("relations", relations?)] members)
      (identifier : WritesField none WritesOptional entity.identifier? identifier?)
      (columns : WritesField [] WritesColumns entity.columns columns?)
      (relations : WritesField Dictionary.empty WritesRelations entity.relations relations?) :
      WrittenAs entity (.record members)

/-! ## Reading the fields -/

variable {depth : Nat} {node : Node} {members : List (String × Node)} {key : String}

theorem WritesOptional.reads {value : Option String} (written : WritesOptional value node) :
    Decoder.optional Decoder.text depth node = .ok value := by
  cases written <;> rfl

theorem flag_reads (value : Bool) : Decoder.flag depth (.bool value) = .ok value := rfl

theorem ColumnKind.reads (kind : ColumnKind) :
    Decoder.choice (ColumnKind.all.map ColumnKind.name) ColumnKind.ofName? depth
      (.string (some kind.name)) =
      .ok kind := by
  cases kind <;> rfl

theorem Multiplicity.reads (multiplicity : Multiplicity) :
    Decoder.choice (Multiplicity.all.map Multiplicity.name) Multiplicity.ofName? depth
      (.string (some multiplicity.name)) = .ok multiplicity := by
  cases multiplicity <;> rfl

/-! ### Columns -/

/-- The members fill each field of a column's draft. -/
structure ColumnDraft.Reads (depth : Nat) (members : List (String × Node))
    (draft final : ColumnDraft) : Prop where
  property : Fills "property" (Decoder.text depth) members draft.property? final.property?
  name : Fills "name" (Decoder.optional Decoder.text depth) members draft.name? final.name?
  kind : Fills "type" (Decoder.choice (ColumnKind.all.map ColumnKind.name) ColumnKind.ofName? depth)
    members
    draft.kind? final.kind?
  nullable : Fills "nullable" (Decoder.flag depth) members draft.nullable? final.nullable?
  reference : Fills "ref_name" (Decoder.optional Decoder.text depth) members draft.reference?
    final.reference?

theorem ColumnDraft.Reads.done {draft final : ColumnDraft} (reads : Reads depth [] draft final) :
    draft = final := by
  cases draft
  cases final
  obtain ⟨property, name, kind, nullable, reference⟩ := reads
  cases property.eq_of_nil
  cases name.eq_of_nil
  cases kind.eq_of_nil
  cases nullable.eq_of_nil
  cases reference.eq_of_nil
  rfl

theorem ColumnDraft.Reads.step {draft final : ColumnDraft}
    (reads : Reads depth ((key, node) :: members) draft final) :
    ∃ next, ColumnDraft.read depth draft key node = .ok next ∧ Reads depth members next final := by
  obtain ⟨property, name, kind, nullable, reference⟩ := reads
  unfold ColumnDraft.read
  -- The field with the key takes the member, all others leave it; there is no field in the last
  -- case.
  split
  · obtain ⟨value, reads, later⟩ := property.of_self
    exact ⟨_, bind_ok reads rfl, later, name.of_ne (by decide), kind.of_ne (by decide),
      nullable.of_ne (by decide), reference.of_ne (by decide)⟩
  · obtain ⟨value, reads, later⟩ := name.of_self
    exact ⟨_, bind_ok reads rfl, property.of_ne (by decide), later, kind.of_ne (by decide),
      nullable.of_ne (by decide), reference.of_ne (by decide)⟩
  · obtain ⟨value, reads, later⟩ := kind.of_self
    exact ⟨_, bind_ok reads rfl, property.of_ne (by decide), name.of_ne (by decide), later,
      nullable.of_ne (by decide), reference.of_ne (by decide)⟩
  · obtain ⟨value, reads, later⟩ := nullable.of_self
    exact ⟨_, bind_ok reads rfl, property.of_ne (by decide), name.of_ne (by decide),
      kind.of_ne (by decide), later, reference.of_ne (by decide)⟩
  · obtain ⟨value, reads, later⟩ := reference.of_self
    exact ⟨_, bind_ok reads rfl, property.of_ne (by decide), name.of_ne (by decide),
      kind.of_ne (by decide), nullable.of_ne (by decide), later⟩
  · next notProperty notName notKind notNullable notReference =>
    exact ⟨draft, rfl, property.of_ne notProperty, name.of_ne notName, kind.of_ne notKind,
      nullable.of_ne notNullable, reference.of_ne notReference⟩

/-- **A column is read from whatever writes it.** -/
theorem Column.WrittenAs.reads {column : Column} (written : column.WrittenAs node) :
    Column.decoder (depth + 1) node = .ok column := by
  cases written with
  | record gathers name kind nullable reference =>
      have distinct : ["property", "name", "type", "nullable", "ref_name"].Nodup := by decide
      have property := gathers.nodesAt distinct "property" (.head _)
      obtain ⟨nameRead, nameFills, rightName⟩ :=
        name.fills (gathers.nodesAt distinct "name" (by simp)) fun _ => WritesOptional.reads
      obtain ⟨kindRead, kindFills, rightKind⟩ :=
        kind.fills (gathers.nodesAt distinct "type" (by simp)) fun _ same =>
          same ▸ ColumnKind.reads _
      obtain ⟨nullableRead, nullableFills, rightNullable⟩ :=
        nullable.fills (gathers.nodesAt distinct "nullable" (by simp)) fun _ same =>
          same ▸ flag_reads _
      obtain ⟨referenceRead, referenceFills, rightReference⟩ :=
        reference.fills (gathers.nodesAt distinct "ref_name" (by simp)) fun _ =>
          WritesOptional.reads
      refine Json.record_of_drafts
        ⟨column.property, nameRead, kindRead, nullableRead, referenceRead⟩
        (fun _ _ => ColumnDraft.Reads.done) (fun _ _ _ _ _ => ColumnDraft.Reads.step)
        ⟨.filled property rfl, nameFills, kindFills, nullableFills, referenceFills⟩ ?_
      change ColumnDraft.finish _ = .ok column
      rw [ColumnDraft.finish, rightName, rightKind, rightNullable, rightReference]
      rfl

/-! ### Relations -/

/-- The members fill each field of a relation's draft. -/
structure RelationDraft.Reads (depth : Nat) (members : List (String × Node))
    (draft final : RelationDraft) : Prop where
  entity : Fills "entity" (Decoder.text depth) members draft.entity? final.entity?
  eager : Fills "eager" (Decoder.flag depth) members draft.eager? final.eager?
  multiplicity : Fills "kind"
    (Decoder.choice (Multiplicity.all.map Multiplicity.name) Multiplicity.ofName? depth)
    members draft.multiplicity? final.multiplicity?

theorem RelationDraft.Reads.done {draft final : RelationDraft}
    (reads : Reads depth [] draft final) :
    draft = final := by
  cases draft
  cases final
  obtain ⟨entity, eager, multiplicity⟩ := reads
  cases entity.eq_of_nil
  cases eager.eq_of_nil
  cases multiplicity.eq_of_nil
  rfl

theorem RelationDraft.Reads.step {draft final : RelationDraft}
    (reads : Reads depth ((key, node) :: members) draft final) :
    ∃ next, RelationDraft.read depth draft key node = .ok next ∧
      Reads depth members next final := by
  obtain ⟨entity, eager, multiplicity⟩ := reads
  unfold RelationDraft.read
  split
  · obtain ⟨value, reads, later⟩ := entity.of_self
    exact ⟨_, bind_ok reads rfl, later, eager.of_ne (by decide), multiplicity.of_ne (by decide)⟩
  · obtain ⟨value, reads, later⟩ := eager.of_self
    exact ⟨_, bind_ok reads rfl, entity.of_ne (by decide), later, multiplicity.of_ne (by decide)⟩
  · obtain ⟨value, reads, later⟩ := multiplicity.of_self
    exact ⟨_, bind_ok reads rfl, entity.of_ne (by decide), eager.of_ne (by decide), later⟩
  · next notEntity notEager notKind =>
    exact ⟨draft, rfl, entity.of_ne notEntity, eager.of_ne notEager, multiplicity.of_ne notKind⟩

/-- **A relation is read from whatever writes it.** -/
theorem Relation.WrittenAs.reads {relation : Relation} (written : relation.WrittenAs node) :
    Relation.decoder (depth + 1) node = .ok relation := by
  cases written with
  | record gathers eager multiplicity =>
      have distinct : ["entity", "eager", "kind"].Nodup := by decide
      have entity := gathers.nodesAt distinct "entity" (.head _)
      obtain ⟨eagerRead, eagerFills, rightEager⟩ :=
        eager.fills (gathers.nodesAt distinct "eager" (by simp)) fun _ same => same ▸ flag_reads _
      obtain ⟨kindRead, kindFills, rightKind⟩ :=
        multiplicity.fills (gathers.nodesAt distinct "kind" (by simp)) fun _ same =>
          same ▸ Multiplicity.reads _
      refine Json.record_of_drafts ⟨relation.entity, eagerRead, kindRead⟩
        (fun _ _ => RelationDraft.Reads.done) (fun _ _ _ _ _ => RelationDraft.Reads.step)
        ⟨.filled entity rfl, eagerFills, kindFills⟩ ?_
      change RelationDraft.finish _ = .ok relation
      rw [RelationDraft.finish, rightEager, rightKind]
      rfl

/-! ### Entities -/

/-- The members fill each field of an entity's draft. -/
structure EntityDraft.Reads (depth : Nat) (members : List (String × Node))
    (draft final : EntityDraft) : Prop where
  name : Fills "name" (Decoder.text depth) members draft.name? final.name?
  table : Fills "table" (Decoder.text depth) members draft.table? final.table?
  identifier : Fills "id" (Decoder.optional Decoder.text depth) members draft.identifier?
    final.identifier?
  columns : Fills "columns" (Decoder.list Column.decoder depth) members draft.columns?
    final.columns?
  relations : Fills "relations" (Decoder.dictionary Relation.decoder depth) members draft.relations?
    final.relations?

theorem EntityDraft.Reads.done {draft final : EntityDraft} (reads : Reads depth [] draft final) :
    draft = final := by
  cases draft
  cases final
  obtain ⟨name, table, identifier, columns, relations⟩ := reads
  cases name.eq_of_nil
  cases table.eq_of_nil
  cases identifier.eq_of_nil
  cases columns.eq_of_nil
  cases relations.eq_of_nil
  rfl

theorem EntityDraft.Reads.step {draft final : EntityDraft}
    (reads : Reads depth ((key, node) :: members) draft final) :
    ∃ next, EntityDraft.read depth draft key node = .ok next ∧ Reads depth members next final := by
  obtain ⟨name, table, identifier, columns, relations⟩ := reads
  unfold EntityDraft.read
  split
  · obtain ⟨value, reads, later⟩ := name.of_self
    exact ⟨_, bind_ok reads rfl, later, table.of_ne (by decide), identifier.of_ne (by decide),
      columns.of_ne (by decide), relations.of_ne (by decide)⟩
  · obtain ⟨value, reads, later⟩ := table.of_self
    exact ⟨_, bind_ok reads rfl, name.of_ne (by decide), later, identifier.of_ne (by decide),
      columns.of_ne (by decide), relations.of_ne (by decide)⟩
  · obtain ⟨value, reads, later⟩ := identifier.of_self
    exact ⟨_, bind_ok reads rfl, name.of_ne (by decide), table.of_ne (by decide), later,
      columns.of_ne (by decide), relations.of_ne (by decide)⟩
  · obtain ⟨value, reads, later⟩ := columns.of_self
    exact ⟨_, bind_ok reads rfl, name.of_ne (by decide), table.of_ne (by decide),
      identifier.of_ne (by decide), later, relations.of_ne (by decide)⟩
  · obtain ⟨value, reads, later⟩ := relations.of_self
    exact ⟨_, bind_ok reads rfl, name.of_ne (by decide), table.of_ne (by decide),
      identifier.of_ne (by decide), columns.of_ne (by decide), later⟩
  · next notName notTable notIdentifier notColumns notRelations =>
    exact ⟨draft, rfl, name.of_ne notName, table.of_ne notTable, identifier.of_ne notIdentifier,
      columns.of_ne notColumns, relations.of_ne notRelations⟩

theorem WritesColumns.reads {columns : List Column} (written : WritesColumns columns node) :
    Decoder.list Column.decoder (depth + 2) node = .ok columns := by
  cases written with
  | array items => exact Json.list_of_items (items.flip.imp fun _ _ => Column.WrittenAs.reads)

theorem WritesRelations.reads {relations : Dictionary Relation}
    (written : WritesRelations relations node) :
    Decoder.dictionary Relation.decoder (depth + 2) node = .ok relations := by
  cases written with
  | record order written =>
      exact Json.dictionary_of_entries order
        (written.flip.imp fun _ _ entry => entry.imp_right Relation.WrittenAs.reads)

/-- **An entity is read from whatever writes it.** -/
theorem Entity.WrittenAs.reads {entity : Entity} (written : entity.WrittenAs node) :
    Entity.decoder (depth + 3) node = .ok entity := by
  cases written with
  | record gathers identifier columns relations =>
      have distinct : ["name", "table", "id", "columns", "relations"].Nodup := by decide
      have name := gathers.nodesAt distinct "name" (.head _)
      have table := gathers.nodesAt distinct "table" (.tail _ (.head _))
      obtain ⟨identifierRead, identifierFills, rightIdentifier⟩ :=
        identifier.fills (gathers.nodesAt distinct "id" (by simp)) fun _ => WritesOptional.reads
      obtain ⟨columnsRead, columnsFills, rightColumns⟩ :=
        columns.fills (gathers.nodesAt distinct "columns" (by simp)) fun _ => WritesColumns.reads
      obtain ⟨relationsRead, relationsFills, rightRelations⟩ :=
        relations.fills (gathers.nodesAt distinct "relations" (by simp)) fun _ =>
          WritesRelations.reads
      refine Json.record_of_drafts
        ⟨entity.name, entity.table, identifierRead, columnsRead, relationsRead⟩
        (fun _ _ => EntityDraft.Reads.done) (fun _ _ _ _ _ => EntityDraft.Reads.step)
        ⟨.filled name rfl, .filled table rfl, identifierFills, columnsFills, relationsFills⟩ ?_
      change EntityDraft.finish _ = .ok entity
      rw [EntityDraft.finish, rightIdentifier, rightColumns, rightRelations]
      rfl

/-- A document whose tree writes an entity is the entity's. -/
theorem Entity.ofDocument_of_written {entity : Entity} {text : String}
    (read : Node.ofText text = (node, true)) (written : entity.WrittenAs node) :
    Entity.ofDocument text = .ok entity := by
  rw [Entity.ofDocument, Json.readDocument, read]
  exact bind_ok written.reads rfl

/-! ## What is written -/

/-- The node of a text, where it is set. -/
def optionalNode (value? : Option String) : Option Node :=
  value?.map fun value => .string (some value)

theorem writesField_optional (value? : Option String) :
    WritesField none WritesOptional value? (optionalNode value?) := by
  cases value? with
  | none => exact .omitted rfl
  | some value => exact .given (.text value)

theorem Column.writtenAs_toJson (column : Column) : column.WrittenAs column.toJson.node := by
  rw [Column.toJson, Json.node_object]
  refine .record (Json.gathers_fields ?_) (writesField_optional column.name?) (.given rfl)
    (.given rfl)
    (writesField_optional column.reference?)
  cases column.name? <;> cases column.reference? <;> rfl

theorem Relation.writtenAs_toJson (relation : Relation) :
    relation.WrittenAs relation.toJson.node := by
  rw [Relation.toJson, Json.node_object]
  exact .record (Json.gathers_fields rfl) (.given rfl) (.given rfl)

theorem writesColumns_toJson (columns : List Column) :
    WritesColumns columns (Json.array (columns.map Column.toJson)).node := by
  rw [Json.node, Json.itemNodes_eq_map, List.map_map]
  refine .array ?_
  rw [List.forall₂_map_right_iff, List.forall₂_same]
  exact fun column _ => column.writtenAs_toJson

theorem writesRelations_toJson (relations : Dictionary Relation) :
    WritesRelations relations
      (Json.object
        (relations.entries.map fun (property, relation) => (property, relation.toJson))).node := by
  rw [Json.node_object, List.map_map]
  refine .record (.refl _) ?_
  rw [List.forall₂_map_right_iff, List.forall₂_same]
  exact fun entry _ => ⟨rfl, entry.2.writtenAs_toJson⟩

/-- **What is written of an entity writes it.** -/
theorem Entity.writtenAs_toJson (entity : Entity) : entity.WrittenAs entity.toJson.node := by
  rw [Entity.toJson, Json.node_object]
  refine .record (Json.gathers_fields ?_) (writesField_optional entity.identifier?)
    (.given (writesColumns_toJson entity.columns))
      (.given (writesRelations_toJson entity.relations))
  cases entity.identifier? <;> rfl

theorem exact_optionalMember (key : String) (value? : Option String) :
    ∀ member ∈ optionalMember key value?, member.2.Exact := by
  cases value? with
  | none => nofun
  | some value =>
      rintro member (_ | ⟨_, _, ⟨⟩⟩)
      trivial

theorem Column.exact_toJson (column : Column) : column.toJson.Exact := by
  rw [Column.toJson, Json.Exact, Json.exactMembers_iff]
  simp only [List.forall_mem_append, List.forall_mem_cons]
  exact ⟨⟨⟨⟨trivial, nofun⟩, exact_optionalMember _ _⟩, trivial, trivial, nofun⟩,
    exact_optionalMember _ _⟩

theorem Relation.exact_toJson (relation : Relation) : relation.toJson.Exact :=
  ⟨trivial, trivial, trivial, trivial⟩

theorem Entity.exact_toJson (entity : Entity) : entity.toJson.Exact := by
  rw [Entity.toJson, Json.Exact, Json.exactMembers_iff]
  simp only [List.forall_mem_append, List.forall_mem_cons]
  refine ⟨⟨⟨trivial, trivial, nofun⟩, exact_optionalMember _ _⟩, ?_, ?_, nofun⟩
  · exact Json.exactItems_iff.mpr (List.forall_mem_map.mpr fun column _ => column.exact_toJson)
  · exact Json.exactMembers_iff.mpr (List.forall_mem_map.mpr fun entry _ => entry.2.exact_toJson)

/-- A schema is read from the array of its entities. -/
theorem Schema.ofDocument_entities (schema : Schema) :
    Schema.ofDocument (Json.array (schema.entities.map Entity.toJson)).compact = .ok schema := by
  have exact_ : (Json.array (schema.entities.map Entity.toJson)).Exact :=
    Json.exactItems_iff.mpr (List.forall_mem_map.mpr fun entity _ => entity.exact_toJson)
  rw [Schema.ofDocument_eq_ok_iff, Schema.Lists, Json.readDocument,
    Json.ofText_compact exact_, Json.node, Json.itemNodes_eq_map, List.map_map]
  refine bind_ok (Json.list_of_items ?_) rfl
  rw [List.forall₂_map_left_iff, List.forall₂_same]
  exact fun entity _ => entity.writtenAs_toJson.reads

/-- **Entities survive their documents**: an entity is read from both printed forms of what is
written of it, whose tree writes it, and from every other document whose tree does. -/
theorem Entity.document_exact (entity : Entity) :
    Entity.ofDocument entity.toJson.compact = .ok entity ∧
      Entity.ofDocument entity.toJson.pretty = .ok entity ∧
      (∃ tree, Node.ofText entity.toJson.compact = (tree, true) ∧ entity.WrittenAs tree) ∧
      ∀ (text : String) (tree : Node), Node.ofText text = (tree, true) → entity.WrittenAs tree →
        Entity.ofDocument text = .ok entity := by
  have compact := Json.ofText_compact entity.exact_toJson
  have pretty := Json.ofText_pretty_alone entity.exact_toJson
  exact ⟨ofDocument_of_written compact entity.writtenAs_toJson,
    ofDocument_of_written pretty entity.writtenAs_toJson, ⟨_, compact, entity.writtenAs_toJson⟩,
    fun text tree => ofDocument_of_written⟩

/-- The sample shop with all fields in reverse order, an unknown one before them, and defaults left
out. -/
def Sample.reversedShop : Json :=
  .object
    [("colour", .string "red"),
      ("relations", .object
        [("area",
          .object [("since", .ofInt 1999), ("eager", .bool true), ("entity", .string "Area")])]),
      ("columns", .array
        [.object [("width", .null), ("nullable", .bool false), ("type", .string "number"),
            ("property", .string "id")],
          .object [("width", .null), ("ref_name", .string "id"), ("type", .string "number"),
            ("name", .string "area_id"), ("property", .string "area")]]),
      ("id", .string "id"), ("table", .string "t_shop"), ("name", .string "Shop")]

theorem Entity.document_exact_reversedShop :
    Entity.ofDocument Sample.reversedShop.compact = .ok Sample.shop := by
  refine (Entity.document_exact Sample.shop).2.2.2 _ _ (Json.ofText_compact ?_) ?_
  · simp [Sample.reversedShop, Json.Exact, Json.ExactMembers, Json.ExactItems, Json.ofInt]
  · have identifier : Column.WrittenAs ⟨"id", none, .number, false, none⟩
        (.record [("width", .null), ("nullable", .bool false), ("type", .string (some "number")),
          ("property", .string (some "id"))]) := by
      refine .record
        (.cons_unknown (.of_perm (Json.gathers_fields ?_) (List.reverse_perm _).symm) ?_)
        (.omitted rfl) (.given rfl) (.given rfl) (.omitted rfl)
      · rfl
      · simp
    have area : Column.WrittenAs ⟨"area", some "area_id", .number, true, some "id"⟩
        (.record
          [("width", .null), ("ref_name", .string (some "id")), ("type", .string (some "number")),
          ("name", .string (some "area_id")), ("property", .string (some "area"))]) := by
      refine .record
        (.cons_unknown (.of_perm (Json.gathers_fields ?_) (List.reverse_perm _).symm) ?_)
        (.given (.text _)) (.given rfl) (.omitted rfl) (.given (.text _))
      · rfl
      · simp
    have relation : Relation.WrittenAs ⟨"Area", true, .manyToOne⟩
        (.record [("since", .number (.ofInt 1999)), ("eager", .bool true),
          ("entity", .string (some "Area"))]) := by
      refine .record
        (.cons_unknown (.of_perm (Json.gathers_fields ?_) (List.reverse_perm _).symm) ?_)
        (.given rfl) (.omitted rfl)
      · rfl
      · simp
    have columns : WritesColumns Sample.shop.columns _ :=
      .array (.cons identifier (.cons area .nil))
    have relations : WritesRelations Sample.shop.relations (.record [("area", _)]) :=
      .record (.refl _) (.cons ⟨rfl, relation⟩ .nil)
    rw [Sample.reversedShop, Json.node_object]
    refine .record (.cons_unknown (.of_perm (Json.gathers_fields ?_) (List.reverse_perm _).symm) ?_)
      (.given (.text _)) (.given columns) (.given relations)
    · rfl
    · simp

end EntityQuery

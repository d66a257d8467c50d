import EntityQuery.Json.Document
import EntityQuery.Proofs.Json.Printing
import EntityQuery.Proofs.Outcome
import Mathlib.Data.List.Perm.Basic

/-!
# Records in any order

The members of an object give the fields of a record in any order, a field may be left out, and
members with other keys make no difference (`Gathers`). Reading the members one after another fills
each field of a draft on its own (`Fills`): with the value of the one member that has its key, or
not at all. It does not matter where in the object that member stands (`Gathers.nodesAt`). A record
is read if its members can be: whichever member is next, the draft takes it and can be filled by the
members behind it (`record_of_drafts`).

A dictionary is an object as well, whose keys are not known beforehand. Read from its entries in any
order it is the same (`dictionary_of_entries`), since its entries are kept in ascending order, and
if a key occurs more than once, its last member holds (`find?_of_lastMember`).
-/

set_option autoImplicit false

namespace EntityQuery

namespace Dictionary

variable {α : Type}

/-- Bindings of new keys, each for another, stand among the entries. -/
theorem foldl_insert_perm {bindings : List (String × α)} {map : Dictionary α}
    (distinct : ((map.entries ++ bindings).map Prod.fst).Nodup) :
    (bindings.foldl (fun map binding => map.insert binding.1 binding.2) map).entries.Perm
      (map.entries ++ bindings) := by
  induction bindings generalizing map with
  | nil => simp
  | cons binding rest ih =>
      have middle : (map.entries ++ binding :: rest).Perm (binding :: (map.entries ++ rest)) :=
        List.perm_middle
      have fresh := (middle.map Prod.fst).nodup_iff.1 distinct
      rw [List.map_cons, List.nodup_cons, List.map_append, List.mem_append, not_or] at fresh
      have inserted : (map.insert binding.1 binding.2).entries.Perm (binding :: map.entries) :=
        insertEntry_perm fresh.1.1
      have order : ((map.insert binding.1 binding.2).entries ++ rest).Perm
          (map.entries ++ binding :: rest) :=
        (inserted.append_right rest).trans middle.symm
      exact (ih ((order.map Prod.fst).nodup_iff.2 distinct)).trans order

/-- A dictionary is rebuilt from its own entries in any order. -/
theorem ofList_of_perm {bindings : List (String × α)} {map : Dictionary α}
    (order : bindings.Perm map.entries) :
    ofList bindings = map := by
  have distinct : ((empty.entries ++ bindings).map Prod.fst).Nodup :=
    (order.map Prod.fst).nodup_iff.2 map.nodup_keys
  have rebuilt : (ofList bindings).entries.Perm map.entries :=
    (foldl_insert_perm distinct).trans order
  refine eq_of_entries (rebuilt.eq_of_pairwise (fun first second _ _ before behind => ?_)
    (ofList bindings).ascending map.ascending)
  exact absurd (String.lt_trans before behind) (String.lt_irrefl _)

end Dictionary

namespace Json

/-- An object that was read to its end, with these members. -/
def Node.record (members : List (String × Node)) : Node :=
  .object (members.map fun member => (some member.1, member.2)) true

/-- The tree of an object is a record. -/
theorem node_object (fields : List (String × Json)) :
    (Json.object fields).node = .record (fields.map fun field => (field.1, field.2.node)) := by
  rw [node, memberNodes_eq_map, Node.record, List.map_map]
  rfl

/-- The last member of an object with a key has this node. -/
def LastMember (key : String) (node : Node) (members : List (Option String × Node)) : Prop :=
  ∃ earlier later, members = earlier ++ (some key, node) :: later ∧
    ∀ member ∈ later, member.1 ≠ some key

/-- The members of an object in any order: those that give fields of a record, where a field may be
left out, and others whose keys are no fields. -/
def Gathers (fields : List (String × Option Node)) (members : List (String × Node)) : Prop :=
  ∃ others : List (String × Node), (∀ other ∈ others, other.1 ∉ fields.map Prod.fst) ∧
    members.Perm ((fields.filterMap fun field => field.2.map fun node => (field.1, node)) ++ others)

/-- A field's node writes a value, or the field is left out and the value is the default. -/
inductive WritesField {α : Type} (default : α) (writes : α → Node → Prop) (value : α) :
    Option Node → Prop
  | omitted (isDefault : value = default) : WritesField default writes value none
  | given {node : Node} (written : writes value node) : WritesField default writes value (some node)

/-- What the members of an object give for a key, in order. -/
def nodesAt (key : String) (members : List (String × Node)) : List Node :=
  members.filterMap fun member => if member.1 = key then some member.2 else none

/-- What the members make of one field of a draft: they leave it as it is, or one of them fills it.
-/
inductive Fills {α : Type} (field : String) (decode : Node → Except Fault α)
    (members : List (String × Node)) : Option α → Option α → Prop
  | kept {value? : Option α}
      (never : nodesAt field members = []) : Fills field decode members value? value?
  | filled {node : Node} {value : α} (once : nodesAt field members = [node])
      (reads : decode node = .ok value) :
    Fills field decode members none (some value)

section Fields

variable {α : Type} {field key : String} {decode : Node → Except Fault α} {node : Node}
  {node? : Option Node} {members rest : List (String × Node)} {fields : List (String × Option Node)}
  {before after : Option α} {value default : α} {writes : α → Node → Prop}

@[simp] theorem nodesAt_cons_self :
    nodesAt field ((field, node) :: rest) = node :: nodesAt field rest := by
  simp [nodesAt]

theorem nodesAt_cons_of_ne (other : key ≠ field) :
    nodesAt field ((key, node) :: rest) = nodesAt field rest := by
  simp [nodesAt, other]

theorem nodesAt_append (first second : List (String × Node)) :
    nodesAt key (first ++ second) = nodesAt key first ++ nodesAt key second :=
  List.filterMap_append

theorem nodesAt_of_notMem (absent : key ∉ members.map Prod.fst) : nodesAt key members = [] := by
  refine List.filterMap_eq_nil_iff.2 fun member mem => if_neg ?_
  rintro rfl
  exact absent (List.mem_map_of_mem mem)

/-- What the fields give for the key of one of them. -/
theorem nodesAt_fields (distinct : (fields.map Prod.fst).Nodup) (listed : (key, node?) ∈ fields) :
    nodesAt key (fields.filterMap fun field => field.2.map fun node => (field.1, node)) =
      node?.toList := by
  obtain ⟨earlier, later, rfl⟩ := List.append_of_mem listed
  have others : ∀ fields : List (String × Option Node), key ∉ fields.map Prod.fst →
      nodesAt key (fields.filterMap fun field => field.2.map fun node => (field.1, node)) = [] := by
    intro fields absent
    refine nodesAt_of_notMem fun mem => absent ?_
    obtain ⟨member, given, same⟩ := List.mem_map.1 mem
    obtain ⟨field, fieldMem, shown⟩ := List.mem_filterMap.1 given
    obtain ⟨node, -, rfl⟩ := Option.map_eq_some_iff.1 shown
    exact same ▸ List.mem_map_of_mem fieldMem
  rw [List.map_append, List.map_cons, List.perm_middle.nodup_iff, List.nodup_cons, List.mem_append,
    not_or] at distinct
  rw [List.filterMap_append, nodesAt_append, others earlier distinct.1.1, List.nil_append]
  cases node? with
  | none => exact others later distinct.1.2
  | some node =>
      change nodesAt key ((key, node) :: _) = _
      rw [nodesAt_cons_self, others later distinct.1.2]
      rfl

/-- The members that give the fields, in the order of the fields. -/
theorem gathers_fields
    (same : members = fields.filterMap fun field => field.2.map fun node => (field.1, node)) :
    Gathers fields members :=
  ⟨[], nofun, by rw [same, List.append_nil]⟩

/-- Another order of the members makes no difference. -/
theorem Gathers.of_perm {others : List (String × Node)} (gathers : Gathers fields members)
    (order : others.Perm members) : Gathers fields others :=
  have ⟨unknown, notFields, given⟩ := gathers
  ⟨unknown, notFields, order.trans given⟩

/-- A member with an unknown key makes no difference. -/
theorem Gathers.cons_unknown (gathers : Gathers fields members)
    (unknown : key ∉ fields.map Prod.fst) :
    Gathers fields ((key, node) :: members) :=
  have ⟨others, notFields, given⟩ := gathers
  ⟨(key, node) :: others, List.forall_mem_cons.mpr ⟨unknown, notFields⟩,
    (given.cons _).trans List.perm_middle.symm⟩

/-- **A field in its place**: wherever its member stands, the members give its node for its key, and
nothing if it is left out. -/
theorem Gathers.nodesAt (gathers : Gathers fields members) (distinct : (fields.map Prod.fst).Nodup)
    (key : String) (listed : (key, node?) ∈ fields) : nodesAt key members = node?.toList := by
  obtain ⟨others, unknown, order⟩ := gathers
  have given := order.filterMap fun member => if member.1 = key then some member.2 else none
  have behind : Json.nodesAt key others = [] := by
    refine nodesAt_of_notMem fun mem => ?_
    obtain ⟨other, member, same⟩ := List.mem_map.1 mem
    exact unknown other member (same ▸ List.mem_map_of_mem listed)
  change (Json.nodesAt key members).Perm (Json.nodesAt key _) at given
  rw [nodesAt_append, nodesAt_fields distinct listed, behind, List.append_nil] at given
  -- One node at most has no other order.
  cases node? with
  | none => exact List.perm_nil.1 given
  | some node => exact List.perm_singleton.1 given

/-- Nothing is left to fill behind the last member. -/
theorem Fills.eq_of_nil (fills : Fills field decode [] before after) : before = after := by
  cases fills with
  | kept => rfl
  | filled once => cases once

/-- A member with another key leaves a field to the members behind it. -/
theorem Fills.of_ne (other : key ≠ field)
    (fills : Fills field decode ((key, node) :: rest) before after) :
    Fills field decode rest before after := by
  cases fills with
  | kept never => exact .kept (nodesAt_cons_of_ne other ▸ never)
  | filled once reads => exact .filled (nodesAt_cons_of_ne other ▸ once) reads

/-- The member of a field fills it, for the first time, and is the last to do so. -/
theorem Fills.of_self (fills : Fills field decode ((field, node) :: rest) before after) :
    ∃ value, Decoder.once field before (decode node) = .ok value ∧
      Fills field decode rest (some value) after := by
  cases fills with
  | kept never => simp at never
  | @filled given value once reads =>
      rw [nodesAt_cons_self, List.cons.injEq] at once
      exact ⟨value, once.1 ▸ reads, .kept once.2⟩

/-- A field that may be left out is filled with the value that its node writes, or it is left out
and its default is the value. -/
theorem WritesField.fills (written : WritesField default writes value node?)
    (given : nodesAt field members = node?.toList)
    (reads : ∀ node, writes value node → decode node = .ok value) :
    ∃ value?, Fills field decode members none value? ∧ value?.getD default = value := by
  cases written with
  | omitted isDefault => exact ⟨none, .kept given, isDefault.symm⟩
  | given written => exact ⟨some value, .filled given (reads _ written), rfl⟩

end Fields

/-! ## Records -/

section Records

open Decoder (RecordShape)

variable {σ α : Type} {shape : RecordShape σ α} {members : List (String × Node)} {value : α}
  {depth : Nat}

/-- Members are read into a draft one after another, as long as each leads to a draft that the
members behind it can be read into. -/
theorem foldlM_of_drafts {Reads : List (String × Node) → σ → σ → Prop} {draft final : σ}
    (done : ∀ draft final, Reads [] draft final → draft = final)
    (step : ∀ key node rest draft final, Reads ((key, node) :: rest) draft final →
      ∃ next, shape.read depth draft key node = .ok next ∧ Reads rest next final)
    (reads : Reads members draft final) :
    members.foldlM (fun draft member => shape.read depth draft member.1 member.2) draft =
      .ok final := by
  induction members generalizing draft with
  | nil => exact congrArg Except.ok (done draft final reads)
  | cons member rest ih =>
      obtain ⟨next, first, others⟩ := step member.1 member.2 rest draft final reads
      rw [List.foldlM_cons]
      exact bind_ok first (ih others)

/-- A record is read from an object if its members can be read into a draft of the record. -/
theorem record_of_drafts {Reads : List (String × Node) → σ → σ → Prop} (final : σ)
    (done : ∀ draft final, Reads [] draft final → draft = final)
    (step : ∀ key node rest draft final, Reads ((key, node) :: rest) draft final →
      ∃ next, shape.read depth draft key node = .ok next ∧ Reads rest next final)
    (reads : Reads members shape.start final) (finishes : shape.finish final = .ok value) :
    Decoder.record shape (depth + 1) (Node.record members) = .ok value := by
  have gathered := foldlM_of_drafts done step reads
  rw [Node.record, Decoder.record, List.foldlM_map]
  exact bind_ok gathered finishes

end Records

/-! ## Lists and dictionaries -/

section Containers

variable {α : Type} {decoder : Decoder α} {depth : Nat}

/-- A list is read from an array item by item. -/
theorem list_of_items {nodes : List Node} {values : List α}
    (reads : List.Forall₂ (fun node value => decoder depth node = .ok value) nodes values) :
    Decoder.list decoder (depth + 1) (.array nodes true) = .ok values :=
  bind_ok (mapM_eq_ok_iff.mpr reads) rfl

/-- Members with the keys and values of entries are read into a dictionary as the entries are put
into it. -/
theorem foldlM_of_entries {members : List (String × Node)} {entries : List (String × α)}
    (before : Dictionary α)
    (reads : List.Forall₂
      (fun member entry => member.1 = entry.1 ∧ decoder depth member.2 = .ok entry.2)
      members entries) :
    (members.foldlM (fun map member => do return map.insert member.1 (← decoder depth member.2))
      before :
        Except Fault (Dictionary α)) =
      .ok (entries.foldl (fun map entry => map.insert entry.1 entry.2) before) := by
  induction reads generalizing before with
  | nil => rfl
  | @cons member entry members entries first _ ih =>
      rw [List.foldlM_cons, List.foldl_cons]
      refine bind_ok (bind_ok first.2 ?_) (ih _)
      rw [first.1]
      rfl

/-- A dictionary is read from an object that has its entries for members, in any order. -/
theorem dictionary_of_entries {members : List (String × Node)} {entries : List (String × α)}
    {map : Dictionary α} (order : entries.Perm map.entries)
    (reads : List.Forall₂
      (fun member entry => member.1 = entry.1 ∧ decoder depth member.2 = .ok entry.2)
      members entries) :
    Decoder.dictionary decoder (depth + 1) (Node.record members) = .ok map := by
  have gathered := foldlM_of_entries Dictionary.empty reads
  rw [Node.record, Decoder.dictionary, List.foldlM_map]
  exact bind_ok gathered (congrArg Except.ok (Dictionary.ofList_of_perm order))

/-- Of two members with one key the later holds. -/
theorem find?_of_lastMember {members : List (Option String × Node)} {whole : Bool}
    {map : Dictionary α} {key : String} {node : Node} {value : α}
    (last : LastMember key node members) (reads : decoder depth node = .ok value)
    (read : Decoder.dictionary decoder (depth + 1) (.object members whole) = .ok map) :
    map.find? key = some value := by
  obtain ⟨earlier, later, rfl, others⟩ := last
  obtain ⟨gathered, folds, complete⟩ := ok_of_bind read
  have same : gathered = map := by
    unfold Decoder.whole at complete
    split at complete
    · exact Except.ok.inj complete
    · cases complete
  subst same
  refine foldlM_settles (fun map => map.find? key = some value) folds ?_ ?_
  · intro current next stepped
    obtain ⟨_, ⟨⟩, stepped⟩ := ok_of_bind stepped
    obtain ⟨_, decoded, ⟨⟩⟩ := ok_of_bind stepped
    rw [reads] at decoded
    cases decoded
    rw [Dictionary.find?_insert, if_pos rfl]
  · rintro ⟨name?, other⟩ member current next stepped before
    obtain ⟨name, named, stepped⟩ := ok_of_bind stepped
    obtain ⟨_, decoded, ⟨⟩⟩ := ok_of_bind stepped
    have differs : key ≠ name := by
      rintro rfl
      cases name? with
      | none => cases named
      | some name =>
          cases named
          exact others _ member rfl
    rw [Dictionary.find?_insert, if_neg differs]
    exact before

/-- A document that can be read has a tree that can. -/
theorem decodes_of_readDocument {text : String} {value : α}
    (read : readDocument decoder text = .ok value) :
    decoder maxDepth (Node.ofText text).1 = .ok value := by
  unfold readDocument at read
  generalize Node.ofText text = tree at read ⊢
  obtain ⟨decoded, reads, complete⟩ := ok_of_bind read
  split at complete
  · cases complete
    exact reads
  · cases complete

end Containers

end Json

end EntityQuery

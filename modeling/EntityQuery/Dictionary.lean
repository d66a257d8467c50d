/-!
# Dictionaries

Finite maps from texts, kept as entries with strictly ascending keys, so that two dictionaries with
the same bindings are equal and entries come out in one order. Texts are ordered by code points,
which is also the order of their octets in UTF-8. The main statements are `find?_insert` and
`find?_insertIfNew`, what a key stands for after an insertion.
-/

set_option autoImplicit false

namespace EntityQuery

namespace Dictionary

variable {α : Type}

/-- The keys ascend strictly. -/
def Ascending (entries : List (String × α)) : Prop :=
  entries.Pairwise fun earlier later => earlier.1 < later.1

/-- The entries with `key` bound to `value`, in place of what it was bound to. -/
def insertEntry (key : String) (value : α) : List (String × α) → List (String × α)
  | [] => [(key, value)]
  | entry :: rest =>
    if key < entry.1 then (key, value) :: entry :: rest
    else if key = entry.1 then (key, value) :: rest
    else entry :: insertEntry key value rest

theorem mem_insertEntry {key : String} {value : α} {entry : String × α} :
    ∀ {entries : List (String × α)}, entry ∈ insertEntry key value entries →
      entry = (key, value) ∨ entry ∈ entries
  | [], mem => by simpa [insertEntry] using mem
  | first :: rest, mem => by
    unfold insertEntry at mem
    split at mem
    · simpa using mem
    · split at mem
      · rcases List.mem_cons.1 mem with same | old
        · exact .inl same
        · exact .inr (List.mem_cons_of_mem _ old)
      · rcases List.mem_cons.1 mem with same | old
        · exact .inr (same ▸ List.mem_cons_self ..)
        · exact (mem_insertEntry old).imp id (List.mem_cons_of_mem _)

theorem ascending_insertEntry (key : String) (value : α) :
    ∀ {entries : List (String × α)}, Ascending entries → Ascending (insertEntry key value entries)
  | [], _ => by simp [insertEntry, Ascending]
  | first :: rest, ascending => by
    have later := (List.pairwise_cons.1 ascending).1
    have tail : Ascending rest := (List.pairwise_cons.1 ascending).2
    unfold insertEntry
    split
    · next before =>
      refine List.pairwise_cons.2 ⟨fun entry mem => ?_, ascending⟩
      rcases List.mem_cons.1 mem with rfl | mem
      · exact before
      · exact String.lt_trans before (later entry mem)
    · split
      · next same =>
        refine List.pairwise_cons.2 ⟨fun entry mem => ?_, tail⟩
        show key < entry.1
        exact same ▸ later entry mem
      · next notBefore different =>
        refine List.pairwise_cons.2 ⟨fun entry mem => ?_, ascending_insertEntry key value tail⟩
        rcases mem_insertEntry mem with rfl | mem
        · exact Std.lt_of_le_of_ne (Std.not_lt.1 notBefore) (Ne.symm different)
        · exact later entry mem

/-- An entry with a new key stands among the others. -/
theorem insertEntry_perm {key : String} {value : α} {entries : List (String × α)}
    (fresh : key ∉ entries.map Prod.fst) :
    (insertEntry key value entries).Perm ((key, value) :: entries) := by
  induction entries with
  | nil => exact .refl _
  | cons first rest ih =>
    rw [List.map_cons, List.mem_cons, not_or] at fresh
    rw [insertEntry]
    split
    · exact .refl _
    · rw [if_neg fresh.1]
      exact ((ih fresh.2).cons first).trans (.swap _ _ _)

theorem lookup_cons (entry : String × α) (rest : List (String × α)) (key : String) :
    (entry :: rest).lookup key = if key = entry.1 then some entry.2 else rest.lookup key := by
  obtain ⟨first, value⟩ := entry
  by_cases same : key = first
  · simp [same]
  · have differs : (key == first) = false := by simpa using same
    simp [List.lookup_cons, differs, same]

theorem lookup_insertEntry (key other : String) (value : α) :
    ∀ entries : List (String × α), (insertEntry key value entries).lookup other =
      if other = key then some value else entries.lookup other
  | [] => by simp [insertEntry, lookup_cons]
  | first :: rest => by
    unfold insertEntry
    split
    · rw [lookup_cons]
    · split
      · next same =>
        rw [lookup_cons, lookup_cons first]
        by_cases here : other = key
        · simp [here]
        · simp [here, show other ≠ first.1 from same ▸ here]
      · next different =>
        rw [lookup_cons, lookup_cons, lookup_insertEntry key other value rest]
        by_cases here : other = first.1
        · simp [here, Ne.symm different]
        · simp [here]

end Dictionary

/-- A finite map from texts, as entries with strictly ascending keys. -/
structure Dictionary (α : Type) where
  entries : List (String × α)
  ascending : Dictionary.Ascending entries

namespace Dictionary

variable {α : Type}

theorem eq_of_entries {first second : Dictionary α} (same : first.entries = second.entries) :
    first = second := by
  cases first; cases second; cases same; rfl

instance [DecidableEq α] : DecidableEq (Dictionary α) := fun first second =>
  decidable_of_iff (first.entries = second.entries) ⟨eq_of_entries, fun same => same ▸ rfl⟩

instance [Repr α] : Repr (Dictionary α) := ⟨fun map width => reprPrec map.entries width⟩

/-- The dictionary without entries. -/
def empty : Dictionary α := ⟨[], List.Pairwise.nil⟩

instance : Inhabited (Dictionary α) := ⟨empty⟩

/-- The dictionary with `key` bound to `value`. -/
def insert (map : Dictionary α) (key : String) (value : α) : Dictionary α :=
  ⟨insertEntry key value map.entries, ascending_insertEntry key value map.ascending⟩

/-- What a key is bound to. -/
def find? (map : Dictionary α) (key : String) : Option α :=
  map.entries.lookup key

/-- The dictionary with `key` bound to `value`, unless it is bound already. -/
def insertIfNew (map : Dictionary α) (key : String) (value : α) : Dictionary α :=
  if (map.find? key).isSome then map else map.insert key value

/-- The keys in ascending order. -/
def keys (map : Dictionary α) : List String :=
  map.entries.map (·.1)

/-- The bindings of a list; of two for one key the later holds. -/
def ofList (bindings : List (String × α)) : Dictionary α :=
  bindings.foldl (fun map binding => map.insert binding.1 binding.2) empty

@[simp] theorem find?_empty (key : String) : (empty : Dictionary α).find? key = none := rfl

theorem find?_insert (map : Dictionary α) (key other : String) (value : α) :
    (map.insert key value).find? other = if other = key then some value else map.find? other :=
  lookup_insertEntry key other value map.entries

theorem find?_insertIfNew (map : Dictionary α) (key other : String) (value : α) :
    (map.insertIfNew key value).find? other =
      (map.find? other).or (if other = key then some value else none) := by
  unfold insertIfNew
  split
  · next bound =>
    by_cases same : other = key
    · subst same
      obtain ⟨old, found⟩ := Option.isSome_iff_exists.1 bound
      simp [found]
    · simp [same]
  · next free =>
    rw [find?_insert]
    by_cases same : other = key
    · subst same
      rw [Option.not_isSome_iff_eq_none] at free
      simp [free]
    · simp [same]

theorem nodup_keys (map : Dictionary α) : (map.entries.map Prod.fst).Nodup :=
  List.pairwise_map.2 (map.ascending.imp fun before => Std.ne_of_lt before)

theorem mem_keys_of_find? {map : Dictionary α} {key : String} {value : α}
    (found : map.find? key = some value) : key ∈ map.keys := by
  obtain ⟨before, after, whole, _⟩ := List.lookup_eq_some_iff.1 found
  rw [keys, whole]
  simp

theorem isSome_find?_of_mem_keys {map : Dictionary α} {key : String} (mem : key ∈ map.keys) :
    (map.find? key).isSome = true := by
  obtain ⟨entry, inside, rfl⟩ := List.mem_map.1 mem
  exact List.lookup_isSome_iff.2 ⟨entry, inside, beq_self_eq_true _⟩

end Dictionary

end EntityQuery

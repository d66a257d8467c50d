import EntityQuery.Schema.Registry
import EntityQuery.Proofs.Aliases.Entries
import Mathlib.Data.List.Forall2
import Mathlib.Logic.Relation

/-!
# Hops and reachable alias tables

A query allocates aliases in two ways: an entry of the table clause binds a registered entity, and a
hop leads from an owner under an alias to the target of one of its relations. The target of a hop is
the first occurrence of its entity, which is joined if there is none. The tables that arise in this
way are the reachable ones (`Reached`).

Every reachable table is sound (`Reached.sound`): its aliases stand for registered entities, its
written names are bound to aliases of their entities, and its joins realize the entries that come
from hops, one for one and in the same order. Its first entry comes from the table clause
(`Reached.head_written`).
-/

set_option autoImplicit false

namespace EntityQuery

/-- A column of an entity leads along its relation to a registered target. -/
def Registry.LeadsTo (registry : Registry) (owner : Entity) (column : Column)
    (target : Entity) : Prop :=
  column ∈ owner.columns ∧
    ∃ relation, owner.hop? column = some relation ∧ registry.lookup relation.entity = some target

/-- The target of a hop is registered under its own name. -/
theorem Registry.LeadsTo.target_registered {registry : Registry} {owner target : Entity}
    {column : Column} (leads : registry.LeadsTo owner column target) :
    registry.lookup target.name = some target := by
  obtain ⟨_, relation, _, found⟩ := leads
  rw [registry.name_of_lookup found]
  exact found

namespace Aliases

/-! ## Joining a target -/

/-- The join of a target under an alias, along a column of an owner. -/
def joinOf (owner : Entity) (ownerAlias : String) (column : Column) (target : Entity)
    (targetAlias : String) : Join where
  owner := owner.name
  ownerAlias := ownerAlias
  target := target.name
  targetTable := target.table
  targetAlias := targetAlias
  foreignKey := column.columnName
  reference := column.referenceName

/-- The occurrence of a target, along a column of an owner. -/
def hopOccurrence (ownerAlias : String) (column : Column) (target : Entity) : Occurrence :=
  ⟨target.name, some ⟨ownerAlias, column.property⟩⟩

/-- The table with the target of a hop as one more occurrence. -/
def withJoin (aliases : Aliases) (owner : Entity) (ownerAlias : String) (column : Column)
    (target : Entity) : Aliases :=
  { aliases with
    occurrences := aliases.occurrences ++ [hopOccurrence ownerAlias column target]
    joins := aliases.joins ++ [joinOf owner ownerAlias column target aliases.next] }

theorem extends_withJoin (aliases : Aliases) (owner : Entity) (ownerAlias : String)
    (column : Column) (target : Entity) :
    aliases.Extends (aliases.withJoin owner ownerAlias column target) :=
  List.prefix_append _ _

theorem entries_withJoin (aliases : Aliases) (owner : Entity) (ownerAlias : String)
    (column : Column) (target : Entity) :
    (aliases.withJoin owner ownerAlias column target).entries =
      aliases.entries ++ [(aliases.next, hopOccurrence ownerAlias column target)] :=
  entries_of_occurrences rfl

/-- A hop takes the first occurrence of its target, or joins the target if there is none. -/
theorem join_cases (aliases : Aliases) (owner : Entity) (ownerAlias : String) (column : Column)
    (target : Entity) :
    (∃ alias_, aliases.first? target.name = some alias_ ∧
      aliases.join owner ownerAlias column target = (alias_, aliases)) ∨
    (aliases.first? target.name = none ∧
      aliases.join owner ownerAlias column target =
        (aliases.next, aliases.withJoin owner ownerAlias column target)) := by
  unfold join
  cases first : aliases.first? target.name with
  | some alias_ => exact .inl ⟨alias_, rfl, rfl⟩
  | none => exact .inr ⟨rfl, rfl⟩

theorem extends_join (aliases : Aliases) (owner : Entity) (ownerAlias : String) (column : Column)
    (target : Entity) : aliases.Extends (aliases.join owner ownerAlias column target).2 := by
  rcases aliases.join_cases owner ownerAlias column target with ⟨_, _, same⟩ | ⟨_, same⟩
  · rw [same]
    exact .refl aliases
  · rw [same]
    exact aliases.extends_withJoin owner ownerAlias column target

/-- A later table with the same written names. -/
structure Keeps (earlier later : Aliases) : Prop where
  more : earlier.Extends later
  bindings : later.bindings = earlier.bindings

theorem Keeps.refl (aliases : Aliases) : aliases.Keeps aliases :=
  ⟨.refl aliases, rfl⟩

theorem Keeps.trans {first second third : Aliases} (before : first.Keeps second)
    (after : second.Keeps third) : first.Keeps third :=
  ⟨before.more.trans after.more, after.bindings.trans before.bindings⟩

/-- What keeps the written names keeps what a name stands for. -/
theorem Keeps.resolve?_eq {earlier later : Aliases} (keeps : earlier.Keeps later)
    (written : String) :
    later.resolve? written = earlier.resolve? written := by
  rw [resolve?, keeps.bindings, resolve?]

/-- A hop keeps the written names. -/
theorem keeps_join (aliases : Aliases) (owner : Entity) (ownerAlias : String) (column : Column)
    (target : Entity) : aliases.Keeps (aliases.join owner ownerAlias column target).2 := by
  refine ⟨aliases.extends_join owner ownerAlias column target, ?_⟩
  rcases aliases.join_cases owner ownerAlias column target with ⟨_, _, same⟩ | ⟨_, same⟩
  · rw [same]
  · rw [same]
    rfl

/-- After a hop the alias that it answers is the first of its target. -/
theorem first?_join (aliases : Aliases) (owner : Entity) (ownerAlias : String) (column : Column)
    (target : Entity) :
    (aliases.join owner ownerAlias column target).2.first? target.name =
      some (aliases.join owner ownerAlias column target).1 := by
  rcases aliases.join_cases owner ownerAlias column target with
    ⟨_, first, same⟩ | ⟨none_before, same⟩
  · rw [same]
    exact first
  · have one : (aliases.withJoin owner ownerAlias column target).occurrences =
        aliases.occurrences ++ [hopOccurrence ownerAlias column target] := rfl
    rw [same]
    exact first?_of_occurrences one none_before

/-! ## Steps and runs -/

/-- A hop that a query can take: the owner is registered and stands under the alias, and the column,
the first of its property, leads to the target. -/
structure IsHop (registry : Registry) (aliases : Aliases) (owner : Entity) (ownerAlias : String)
    (column : Column) (target : Entity) : Prop where
  stands : aliases.StandsFor ownerAlias owner.name
  registered : registry.lookup owner.name = some owner
  named : owner.column? column.property = some column
  leads : registry.LeadsTo owner column target

/-- The table after one hop. -/
inductive Hop (registry : Registry) (aliases : Aliases) : Aliases → Prop where
  | along {owner : Entity} {ownerAlias : String} {column : Column} {target : Entity}
      (hop : IsHop registry aliases owner ownerAlias column target) :
      Hop registry aliases (aliases.join owner ownerAlias column target).2

/-- The table after hops one after another. -/
abbrev Hops (registry : Registry) : Aliases → Aliases → Prop :=
  Relation.ReflTransGen (Hop registry)

/-- The tables that a query can reach. -/
inductive Reached (registry : Registry) : Aliases → Prop where
  | empty : Reached registry .empty
  | entry {aliases : Aliases} {entity : Entity} (before : Reached registry aliases)
      (registered : registry.lookup entity.name = some entity) (written? : Option String) :
      Reached registry (aliases.bind entity.name written?).2
  | hop {aliases later : Aliases} (before : Reached registry aliases)
      (step : Hop registry aliases later) : Reached registry later

variable {registry : Registry}

theorem IsHop.mono {earlier later : Aliases} (more : earlier.Extends later) {owner : Entity}
    {ownerAlias : String} {column : Column} {target : Entity}
    (hop : IsHop registry earlier owner ownerAlias column target) :
    IsHop registry later owner ownerAlias column target :=
  ⟨hop.stands.mono more, hop.registered, hop.named, hop.leads⟩

/-- A hop leaves the table as it is, or joins its target, which has no occurrence yet. -/
theorem Hop.cases_join {aliases later : Aliases} (step : Hop registry aliases later) :
    later = aliases ∨
      ∃ owner ownerAlias column target, IsHop registry aliases owner ownerAlias column target ∧
        aliases.first? target.name = none ∧
        later = aliases.withJoin owner ownerAlias column target := by
  cases step with
  | @along owner ownerAlias column target hop =>
      rcases aliases.join_cases owner ownerAlias column target with ⟨_, _, same⟩ | ⟨fresh, same⟩
      · exact .inl (congrArg Prod.snd same)
      · exact .inr ⟨owner, ownerAlias, column, target, hop, fresh, congrArg Prod.snd same⟩

theorem Hop.extends {aliases later : Aliases} (step : Hop registry aliases later) :
    aliases.Extends later := by
  cases step with
  | along => exact extends_join _ _ _ _ _

theorem Hops.extends {aliases later : Aliases} (hops : Hops registry aliases later) :
    aliases.Extends later := by
  induction hops with
  | refl => exact .refl aliases
  | tail _ step ih => exact ih.trans step.extends

theorem Reached.hops {aliases later : Aliases} (before : Reached registry aliases)
    (hops : Hops registry aliases later) : Reached registry later := by
  induction hops with
  | refl => exact before
  | tail _ step ih => exact .hop ih step

/-! ## Entries of the table clause and entries of hops -/

/-- The entries that come from the table clause. -/
def writtenEntries (aliases : Aliases) : List (String × Occurrence) :=
  aliases.entries.filter fun entry => entry.2.source?.isNone

/-- The entries that come from hops. -/
def hopEntries (aliases : Aliases) : List (String × Occurrence) :=
  aliases.entries.filter fun entry => entry.2.source?.isSome

theorem writtenEntries_bind (aliases : Aliases) (entity : String) (written? : Option String) :
    (aliases.bind entity written?).2.writtenEntries =
      aliases.writtenEntries ++ [(aliases.next, ⟨entity, none⟩)] := by
  simp [writtenEntries, entries_bind]

theorem hopEntries_bind (aliases : Aliases) (entity : String) (written? : Option String) :
    (aliases.bind entity written?).2.hopEntries = aliases.hopEntries := by
  simp [hopEntries, entries_bind]

theorem writtenEntries_withJoin (aliases : Aliases) (owner : Entity) (ownerAlias : String)
    (column : Column) (target : Entity) :
    (aliases.withJoin owner ownerAlias column target).writtenEntries = aliases.writtenEntries := by
  simp [writtenEntries, entries_withJoin, hopOccurrence]

theorem hopEntries_withJoin (aliases : Aliases) (owner : Entity) (ownerAlias : String)
    (column : Column) (target : Entity) :
    (aliases.withJoin owner ownerAlias column target).hopEntries =
      aliases.hopEntries ++ [(aliases.next, hopOccurrence ownerAlias column target)] := by
  simp [hopEntries, entries_withJoin, hopOccurrence]

/-- Every entry comes either from the table clause or from a hop. -/
theorem writtenEntries_append_hopEntries_perm (aliases : Aliases) :
    (aliases.writtenEntries ++ aliases.hopEntries).Perm aliases.entries := by
  have split := List.filter_append_perm (fun entry => entry.2.source?.isNone) aliases.entries
  simpa [writtenEntries, hopEntries] using split

/-- An entry comes from the table clause or from a hop. -/
theorem name_written_or_hop {aliases : Aliases} {entry : String × Occurrence}
    (member : entry ∈ aliases.entries) :
    entry.1 ∈ aliases.writtenEntries.map Prod.fst ∨ entry.1 ∈ aliases.hopEntries.map Prod.fst := by
  cases origin : entry.2.source? with
  | none =>
      exact .inl (List.mem_map_of_mem (List.mem_filter.mpr ⟨member, by rw [origin]; rfl⟩))
  | some source =>
      exact .inr (List.mem_map_of_mem (List.mem_filter.mpr ⟨member, by rw [origin]; rfl⟩))

/-- An alias is not both that of an entry of the table clause and that of a hop. -/
theorem not_written_and_hop {aliases : Aliases} {alias_ : String}
    (written : alias_ ∈ aliases.writtenEntries.map Prod.fst)
    (hop : alias_ ∈ aliases.hopEntries.map Prod.fst) : False := by
  obtain ⟨occurrence, found, isNone⟩ := mem_names_filter_iff.mp written
  obtain ⟨other, foundToo, isSome⟩ := mem_names_filter_iff.mp hop
  cases found.symm.trans foundToo
  rw [Option.isNone_iff_eq_none.mp isNone] at isSome
  cases isSome

theorem hopNames_mono {earlier later : Aliases} (more : earlier.Extends later) :
    earlier.hopEntries.map Prod.fst ⊆ later.hopEntries.map Prod.fst :=
  List.map_subset _ fun _ member =>
    List.mem_filter.mpr ⟨mem_entries_mono more (List.mem_of_mem_filter member),
      (List.mem_filter.mp member).2⟩

/-- Hops leave the entries of the table clause as they are. -/
theorem Hops.writtenEntries_eq {aliases later : Aliases} (hops : Hops registry aliases later) :
    later.writtenEntries = aliases.writtenEntries := by
  induction hops with
  | refl => rfl
  | tail _ step ih =>
      rcases step.cases_join with rfl | ⟨_, _, _, _, _, _, rfl⟩
      · exact ih
      · rw [writtenEntries_withJoin, ih]

/-! ## What every reachable table keeps -/

/-- The join reads the hop that the entry comes from. -/
inductive Realizes (registry : Registry) (aliases : Aliases) :
    Join → String × Occurrence → Prop where
  | hop {owner : Entity} {ownerAlias : String} {column : Column} {target : Entity}
      (hop : IsHop registry aliases owner ownerAlias column target) (alias_ : String) :
      Realizes registry aliases (joinOf owner ownerAlias column target alias_)
        (alias_, hopOccurrence ownerAlias column target)

theorem Realizes.mono {earlier later : Aliases} (more : earlier.Extends later) {join : Join}
    {entry : String × Occurrence} (realizes : Realizes registry earlier join entry) :
    Realizes registry later join entry := by
  cases realizes with
  | hop hop alias_ => exact .hop (hop.mono more) alias_

/-- The join has the alias of the entry, and the owner that the entry records as its source. -/
theorem Realizes.source {aliases : Aliases} {join : Join} {entry : String × Occurrence}
    (realizes : Realizes registry aliases join entry) :
    join.targetAlias = entry.1 ∧
      ∃ source, entry.2.source? = some source ∧ source.alias_ = join.ownerAlias := by
  cases realizes with
  | hop => exact ⟨rfl, _, rfl, rfl⟩

/-- A member of one of two lists that are related in parallel is related to a member of the other.
-/
theorem exists_related_of_mem {α β : Type} {related : α → β → Prop} {left : List α} {right : List β}
    (parallel : List.Forall₂ related left right) {a : α} (member : a ∈ left) :
    ∃ b ∈ right, related a b := by
  induction parallel with
  | nil => cases member
  | @cons first second _ _ one _ ih =>
      rcases List.mem_cons.mp member with rfl | later
      · exact ⟨second, List.mem_cons_self .., one⟩
      · obtain ⟨b, inside, same⟩ := ih later
        exact ⟨b, List.mem_cons_of_mem _ inside, same⟩

/-- What holds of every table that a query can reach. -/
structure Sound (registry : Registry) (aliases : Aliases) : Prop where
  registered : ∀ entry ∈ aliases.entries, ∃ entity, registry.lookup entry.2.entity = some entity
  bound : ∀ binding ∈ aliases.bindings, aliases.StandsFor binding.alias_ binding.entity
  joined : List.Forall₂ (Realizes registry aliases) aliases.joins aliases.hopEntries

theorem Sound.empty : Sound registry Aliases.empty where
  registered _ member := nomatch member
  bound _ member := nomatch member
  joined := .nil

theorem Sound.bind {aliases : Aliases} (sound : Sound registry aliases) {entity : Entity}
    (registered : registry.lookup entity.name = some entity) (written? : Option String) :
    Sound registry (aliases.bind entity.name written?).2 where
  registered entry member := by
    rw [entries_bind, List.mem_append, List.mem_singleton] at member
    rcases member with old | rfl
    · exact sound.registered entry old
    · exact ⟨entity, registered⟩
  bound binding member := by
    rcases List.mem_cons.mp member with rfl | old
    · exact standsFor_bind aliases entity.name written?
    · exact (sound.bound binding old).mono (extends_bind aliases entity.name written?)
  joined := by
    rw [hopEntries_bind]
    exact sound.joined.imp fun _ _ => Realizes.mono (extends_bind aliases entity.name written?)

theorem Sound.withJoin {aliases : Aliases} (sound : Sound registry aliases) {owner : Entity}
    {ownerAlias : String} {column : Column} {target : Entity}
    (hop : IsHop registry aliases owner ownerAlias column target) :
    Sound registry (aliases.withJoin owner ownerAlias column target) := by
  have more := aliases.extends_withJoin owner ownerAlias column target
  refine ⟨fun entry member => ?_, fun binding member => (sound.bound binding member).mono more, ?_⟩
  · rw [entries_withJoin, List.mem_append, List.mem_singleton] at member
    rcases member with old | rfl
    · exact sound.registered entry old
    · exact ⟨target, hop.leads.target_registered⟩
  · rw [hopEntries_withJoin]
    exact List.rel_append (sound.joined.imp fun _ _ => Realizes.mono more)
      (.cons (.hop (hop.mono more) aliases.next) .nil)

/-- **Every table that a query can reach is sound.** -/
theorem Reached.sound {aliases : Aliases} (reached : Reached registry aliases) :
    Sound registry aliases := by
  induction reached with
  | empty => exact .empty
  | entry _ registered written? ih => exact ih.bind registered written?
  | hop _ step ih =>
      rcases step.cases_join with rfl | ⟨_, _, _, _, hop, _, rfl⟩
      · exact ih
      · exact ih.withJoin hop

/-- The first entry of a table comes from the table clause: a hop starts from an entry. -/
theorem Reached.head_written {aliases : Aliases} (reached : Reached registry aliases)
    {entry : String × Occurrence} (head : aliases.entries.head? = some entry) :
    entry.2.source? = none := by
  induction reached with
  | empty => cases head
  | @entry aliases entity _ _ written? ih =>
      rw [entries_bind, List.head?_append] at head
      cases first : aliases.entries.head? with
      | none =>
          rw [first] at head
          cases head
          rfl
      | some old =>
          rw [first] at head
          cases head
          exact ih first
  | @hop aliases later _ step ih =>
      rcases step.cases_join with rfl | ⟨owner, ownerAlias, column, target, hop, _, rfl⟩
      · exact ih head
      · obtain ⟨_, member⟩ := hop.stands
        have nonempty : aliases.entries ≠ [] := List.ne_nil_of_mem member
        rw [entries_withJoin, List.head?_append_of_ne_nil _ nonempty] at head
        exact ih head

end Aliases

end EntityQuery

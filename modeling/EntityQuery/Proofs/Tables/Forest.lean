import EntityQuery.Proofs.Tables.Introduction

/-!
# The forest of sources

The entries of an alias map that come from hops record where they come from, and the joins of the
select are made for the same hops. An entry from a hop comes after its source, and it is the first
of its entity (`Reached.discovered`): a hop starts from an entry, and it takes the first occurrence
of its target whenever there is one.

Hence the alias map of a compiled query is a forest of hops of the schema that agrees with the joins
(`compile_forest`): following the sources from any entry leads back to an entry of the table clause.
-/

set_option autoImplicit false

namespace EntityQuery

open Registry

namespace Aliases

variable {schema : Schema}

/-- What holds of the occurrence in a place that comes from a hop: its source is in an earlier
place, and it is the first occurrence of its entity. -/
structure Discovered (aliases : Aliases) (number : Nat) (occurrence : Occurrence)
    (source : Source) : Prop where
  after : ∃ earlier, earlier < number ∧ source.alias_ = aliasName earlier
  first : aliases.first? occurrence.entity = some (aliasName number)

theorem Discovered.mono {earlier later : Aliases} (more : earlier.Extends later) {number : Nat}
    {occurrence : Occurrence} {source : Source}
    (discovered : Discovered earlier number occurrence source) :
    Discovered later number occurrence source :=
  ⟨discovered.after, first?_mono more discovered.first⟩

/-- What is in a place of a list with one more member was there before or is the last one. -/
theorem getElem?_concat_cases {α : Type} {items : List α} {last item : α} {place : Nat}
    (found : (items ++ [last])[place]? = some item) :
    items[place]? = some item ∨ place = items.length ∧ item = last := by
  rw [List.getElem?_append] at found
  split at found
  · exact .inl found
  · next beyond =>
    rw [List.getElem?_singleton, Option.ite_none_right_eq_some] at found
    exact .inr ⟨by omega, (Option.some.inj found.2).symm⟩

/-- **In a table that a query can reach, every occurrence from a hop comes after its source and is
the first of its entity.** -/
theorem Reached.discovered {aliases : Aliases} (reached : Reached schema aliases) {number : Nat}
    {occurrence : Occurrence} {source : Source}
    (found : aliases.occurrences[number]? = some occurrence)
    (origin : occurrence.source? = some source) : Discovered aliases number occurrence source := by
  induction reached with
  | empty => cases found
  | @entry aliases entity _ _ written? ih =>
      rcases getElem?_concat_cases found with old | ⟨_, rfl⟩
      · exact (ih old).mono (aliases.extends_bind entity.name written?)
      · cases origin
  | @hop aliases later _ step ih =>
      rcases step.cases_join with rfl | ⟨owner, ownerAlias, column, target, hop, fresh, rfl⟩
      · exact ih found
      · rcases getElem?_concat_cases found with old | ⟨rfl, rfl⟩
        · exact (ih old).mono (aliases.extends_withJoin owner ownerAlias column target)
        · cases origin
          obtain ⟨_, entry⟩ := hop.stands
          obtain ⟨earlier, place, name⟩ := mem_entries_iff.mp entry
          exact ⟨⟨earlier, (List.getElem?_eq_some_iff.mp place).1, name⟩,
            first?_of_occurrences rfl fresh⟩

/-- No occurrence of an entity is in an earlier place than the first. -/
theorem le_of_first? {aliases : Aliases} {number other : Nat} {occurrence : Occurrence}
    (first : aliases.first? occurrence.entity = some (aliasName number))
    (found : aliases.occurrences[other]? = some occurrence) : number ≤ other := by
  obtain ⟨place, index, name⟩ := Option.map_eq_some_iff.mp first
  cases aliasName_injective name
  obtain ⟨_, _, none_before⟩ := List.findIdx?_eq_some_iff_getElem.mp index
  obtain ⟨inside, same⟩ := List.getElem?_eq_some_iff.mp found
  by_contra earlier
  exact none_before other (by omega) (by simp [same])

/-- The entry of an alias is the occurrence in the place with its number. -/
theorem lookup_entries_aliasName_iff {aliases : Aliases} {number : Nat} {occurrence : Occurrence} :
    aliases.entries.lookup (aliasName number) = some occurrence ↔
      aliases.occurrences[number]? = some occurrence := by
  rw [lookup_entries_iff, mem_entries_iff]
  constructor
  · rintro ⟨place, found, name⟩
    exact aliasName_injective name ▸ found
  · exact fun found => ⟨number, found, rfl⟩

/-- The aliases of some of the entries, in their order, have ascending numbers. -/
theorem ascending_of_filter (aliases : Aliases) (chosen : String × Occurrence → Bool) :
    ∃ numbers : List Nat, (aliases.entries.filter chosen).map Prod.fst = numbers.map aliasName ∧
      numbers.Pairwise (· < ·) :=
  ascending_of_sublist (List.filter_sublist.map Prod.fst)

/-- The alias of an entry from a hop is that of the first occurrence of its entity. -/
theorem Reached.first?_of_hopEntry {aliases : Aliases} (reached : Reached schema aliases)
    {entry : String × Occurrence} (member : entry ∈ aliases.hopEntries) :
    aliases.first? entry.2.entity = some entry.1 := by
  obtain ⟨inside, isHop⟩ := List.mem_filter.mp member
  obtain ⟨number, found, name⟩ := mem_entries_iff.mp inside
  obtain ⟨source, origin⟩ := Option.isSome_iff_exists.mp isHop
  rw [name]
  exact (reached.discovered found origin).first

/-- No two entries from hops are of one entity. -/
theorem Reached.hopEntities_nodup {aliases : Aliases} (reached : Reached schema aliases) :
    (aliases.hopEntries.map fun entry => entry.2.entity).Nodup := by
  have distinct : aliases.hopEntries.Nodup := aliases.keys_nodup.of_map.filter _
  refine distinct.map_on fun entry member other otherMember same => ?_
  have first := reached.first?_of_hopEntry member
  rw [same, reached.first?_of_hopEntry otherMember] at first
  have name : other.1 = entry.1 := Option.some.inj first
  have found : (entry.1, other.2) ∈ aliases.entries := name ▸ List.mem_of_mem_filter otherMember
  have whole := (lookup_entries_iff.mpr found).symm.trans
    (lookup_entries_iff.mpr (List.mem_of_mem_filter member))
  exact Prod.ext name.symm (Option.some.inj whole).symm

end Aliases

/-! ## The forest of a compiled query -/

/-- A hop of the schema from an entry of an alias map: under the property of the source, the entity
of the source's entry has a foreign key that refers to a column of the target, and a relation to the
target. -/
def Schema.HasHop (schema : Schema) (entries : List (String × Occurrence)) (source : Source)
    (column : Column) (referenced target : String) : Prop :=
  ∃ occurrence owner relation,
    entries.lookup source.alias_ = some occurrence ∧ schema.lookup occurrence.entity = some owner ∧
      owner.column? source.property = some column ∧ column.reference? = some referenced ∧
      owner.relation? source.property = some relation ∧ relation.entity = target

/-- Following the sources of entries from an alias back to an entry of the table clause, the root,
passes over hops of the schema; the properties on the way are listed from the root on. -/
inductive Compiled.Descends (schema : Schema) (compiled : Compiled) (root : String) :
    List String → String → Prop where
  | root {occurrence : Occurrence} (found : compiled.aliases.lookup root = some occurrence)
      (written : occurrence.source? = none) : Descends schema compiled root [] root
  | hop {properties : List String} {alias_ : String} {occurrence : Occurrence} {source : Source}
      {column : Column} {referenced : String}
      (before : Descends schema compiled root properties source.alias_)
      (found : compiled.aliases.lookup alias_ = some occurrence)
      (origin : occurrence.source? = some source)
      (along : schema.HasHop compiled.aliases source column referenced occurrence.entity) :
      Descends schema compiled root (properties ++ [source.property]) alias_

/-- What an entry of an alias map that comes from a hop has to be. -/
structure Compiled.GrowsFrom (schema : Schema) (compiled : Compiled) (number : Nat)
    (occurrence : Occurrence) (source : Source) : Prop where
  /-- The source is the alias of an earlier entry. -/
  after : ∃ earlier, earlier < number ∧ source.alias_ = aliasName earlier
  /-- There is such a hop in the schema, and the join that introduces the alias reads its foreign
  key. -/
  joined : ∃ column referenced,
    schema.HasHop compiled.aliases source column referenced occurrence.entity ∧
      ∃ join ∈ compiled.select.joins, join.target.alias_ = aliasName number ∧
        join.condition = .equation (.column (.of source.alias_ column.columnName))
          (.column (.of (aliasName number) referenced))
  /-- No alias of the entity has a lower number. -/
  lowest : ∀ other otherOccurrence,
    compiled.aliases.lookup (aliasName other) = some otherOccurrence →
    otherOccurrence.entity = occurrence.entity → number ≤ other

/-- What the alias map of a compiled query has to be: a forest of hops that agrees with the joins.
-/
structure Compiled.Forest (schema : Schema) (compiled : Compiled) : Prop where
  grows : ∀ alias_ occurrence source, compiled.aliases.lookup alias_ = some occurrence →
    occurrence.source? = some source →
    ∃ number, alias_ = aliasName number ∧ compiled.GrowsFrom schema number occurrence source
  /-- The joins stand in the order of their numbers. -/
  ascending : ∃ numbers : List Nat,
    (compiled.select.joins.map fun join => join.target.alias_) = numbers.map aliasName ∧
      numbers.Pairwise (· < ·)
  /-- No two joins have the same target entity. -/
  targets : (compiled.select.joins.map fun join =>
    (compiled.aliases.lookup join.target.alias_).map Occurrence.entity).Nodup
  /-- Every entry descends from one of the table clause. -/
  rooted : ∀ alias_ occurrence, compiled.aliases.lookup alias_ = some occurrence →
    ∃ root properties, compiled.Descends schema root properties alias_

namespace Schema

open Aliases (Reached Realizes)

variable {schema : Schema}

/-- The aliases and the joins of a compiled query are those of a table that can be reached. -/
theorem QueryRun.exists_table {compiled : Compiled} (run : schema.QueryRun compiled) :
    ∃ aliases, Reached schema aliases ∧ compiled.aliases = aliases.entries ∧
      compiled.select.joins = aliases.joins.map Join.toLeftJoin := by
  cases run with
  | clauses run _ others => exact ⟨_, others.reached (run.reached .empty), rfl, rfl⟩

/-- The entry that a join realizes comes from a hop of the schema, and the join reads its foreign
key. -/
theorem hasHop_of_realizes {aliases : Aliases} {join : Join} {entry : String × Occurrence}
    (realizes : Realizes schema aliases join entry) {source : Source}
    (origin : entry.2.source? = some source) :
    ∃ column referenced, schema.HasHop aliases.entries source column referenced entry.2.entity ∧
      join.toLeftJoin.target.alias_ = entry.1 ∧
      join.toLeftJoin.condition = .equation (.column (.of source.alias_ column.columnName))
        (.column (.of entry.1 referenced)) := by
  cases realizes with
  | @hop owner ownerAlias column target hop alias_ =>
      cases origin
      obtain ⟨source?, ownerEntry⟩ := hop.stands
      obtain ⟨_, relation, leads, found⟩ := hop.leads
      obtain ⟨referenced, related⟩ := reference_of_hop? leads
      refine ⟨column, column.referenceName, ?_, rfl, rfl⟩
      exact ⟨_, owner, relation, Aliases.lookup_entries_iff.mpr ownerEntry,
        hop.registered, hop.named, referenced, related, (schema.name_of_lookup found).symm⟩

/-- An entry from a hop grows from its source. -/
theorem growsFrom_of_reached {compiled : Compiled} {aliases : Aliases}
    (reached : Reached schema aliases) (entries : compiled.aliases = aliases.entries)
    (joins : compiled.select.joins = aliases.joins.map Join.toLeftJoin) {number : Nat}
    {occurrence : Occurrence} {source : Source}
    (found : aliases.occurrences[number]? = some occurrence)
    (origin : occurrence.source? = some source) :
    compiled.GrowsFrom schema number occurrence source := by
  have discovered := reached.discovered found origin
  have member : (aliasName number, occurrence) ∈ aliases.hopEntries :=
    List.mem_filter.mpr ⟨Aliases.mem_entries_iff.mpr ⟨number, found, rfl⟩, by rw [origin]; rfl⟩
  obtain ⟨join, inside, realizes⟩ := Aliases.exists_related_of_mem reached.sound.joined.flip member
  obtain ⟨column, referenced, hop, name, condition⟩ := hasHop_of_realizes realizes origin
  refine ⟨discovered.after,
    ⟨column, referenced, entries ▸ hop, join.toLeftJoin, ?_, name, condition⟩, ?_⟩
  · exact joins ▸ List.mem_map_of_mem inside
  · intro other otherOccurrence otherFound same
    rw [entries, Aliases.lookup_entries_aliasName_iff] at otherFound
    exact Aliases.le_of_first? (same ▸ discovered.first) otherFound

/-- **Every entry descends from one of the table clause:** its source is in an earlier place. -/
theorem descends_of_reached {compiled : Compiled} {aliases : Aliases}
    (reached : Reached schema aliases) (entries : compiled.aliases = aliases.entries)
    (joins : compiled.select.joins = aliases.joins.map Join.toLeftJoin) (number : Nat)
    {occurrence : Occurrence} (found : aliases.occurrences[number]? = some occurrence) :
    ∃ root properties, compiled.Descends schema root properties (aliasName number) := by
  induction number using Nat.strongRecOn generalizing occurrence with
  | ind number ih =>
      have shown : compiled.aliases.lookup (aliasName number) = some occurrence := by
        rw [entries, Aliases.lookup_entries_aliasName_iff]
        exact found
      cases origin : occurrence.source? with
      | none => exact ⟨aliasName number, [], .root shown origin⟩
      | some source =>
          have grows := growsFrom_of_reached reached entries joins found origin
          obtain ⟨earlier, before, name⟩ := grows.after
          obtain ⟨column, referenced, hop, _⟩ := grows.joined
          obtain ⟨owner, _, _, ownerFound, _⟩ := id hop
          rw [entries, name, Aliases.lookup_entries_aliasName_iff] at ownerFound
          obtain ⟨root, properties, descends⟩ := ih earlier before ownerFound
          rw [← name] at descends
          exact ⟨root, properties ++ [source.property], .hop descends shown origin hop⟩

/-- **The alias map of a compiled query is a forest of hops of the schema that agrees with the
joins.** -/
theorem compile_forest (schema : Schema) (query : String) (compiled : Compiled)
    (accepted : schema.compile query = .ok compiled) : compiled.Forest schema := by
  obtain ⟨aliases, reached, entries, joins⟩ := (queryRun_of_ok accepted).exists_table
  have names : (compiled.select.joins.map fun join => join.target.alias_) =
      aliases.hopEntries.map Prod.fst := by
    rw [joins, List.map_map, ← aliases_of_presents (presents_joins reached), List.map_map]
    rfl
  exact
    { grows := by
        intro alias_ occurrence source found origin
        rw [entries, Aliases.lookup_entries_iff, Aliases.mem_entries_iff] at found
        obtain ⟨number, place, name⟩ := found
        exact ⟨number, name, growsFrom_of_reached reached entries joins place origin⟩
      ascending := names ▸ aliases.ascending_of_filter _
      targets := by
        have targets :=
          calc (compiled.select.joins.map fun join =>
                (compiled.aliases.lookup join.target.alias_).map Occurrence.entity)
            _ = (compiled.select.joins.map fun join => join.target.alias_).map fun alias_ =>
                  (compiled.aliases.lookup alias_).map Occurrence.entity := by
              rw [List.map_map]
              rfl
            _ = (aliases.hopEntries.map fun entry => entry.2.entity).map some := by
              rw [names, entries, List.map_map, List.map_map]
              refine List.map_congr_left fun entry member => ?_
              have found := Aliases.lookup_entries_iff.mpr (List.mem_of_mem_filter member)
              rw [Function.comp_apply, found]
              rfl
        rw [targets]
        exact reached.hopEntities_nodup.map fun _ _ => Option.some.inj
      rooted := by
        intro alias_ occurrence found
        rw [entries, Aliases.lookup_entries_iff, Aliases.mem_entries_iff] at found
        obtain ⟨number, place, name⟩ := found
        obtain ⟨root, properties, descends⟩ :=
          descends_of_reached reached entries joins number place
        have name : alias_ = aliasName number := name
        exact ⟨root, properties, name ▸ descends⟩ }

/-- A hop to the shop of an area, and one back, which takes the area that is there already. -/
theorem compile_forest_areas :
    ∃ compiled, Sample.schema.compile "select a.shop.id, a.shop.area.name from Area a, Tag g" =
        .ok compiled ∧
      compiled.sql = "select t2.id,t0.name from t_area t0"
        ++ " left join t_shop t2 on t0.shop_id = t2.id , t_tag t1" ∧
      compiled.Forest Sample.schema := by
  have shown : (Sample.schema.compile
      "select a.shop.id, a.shop.area.name from Area a, Tag g").toOption.map Compiled.sql =
        some ("select t2.id,t0.name from t_area t0"
          ++ " left join t_shop t2 on t0.shop_id = t2.id , t_tag t1") := by
    decide +kernel
  obtain ⟨compiled, accepted, text⟩ := exists_ok_of_shown shown
  exact ⟨compiled, accepted, text, compile_forest Sample.schema _ compiled accepted⟩

end Schema

end EntityQuery

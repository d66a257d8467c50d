import EntityQuery.Mapping.AliasTable
import EntityQuery.Proofs.Aliases.Log
import EntityQuery.Proofs.Resolution.Query

/-!
# Alias tables and their logs

An alias table keeps a counter and a map for each question that is asked of it. It represents
aliases if each of its maps answers as the list of their occurrences or of their written names does
(`Represents`): the counter is the number of occurrences, a map from entities has the alias of the
first occurrence, a map from aliases has the entries. A new table represents no aliases, and
binding, joining and resolving are answered alike and keep what is represented
(`Represents.perform`).

So a table is a refinement of the aliases of a query, and these match the log of the calls. What a
new table answers to any calls, and what its maps hold after them, can be read off the log
(`run_followsLog`). All aliases that a query can reach are represented by a table after some calls,
and so the joins and the alias map of a compiled query are those that a table holds
(`compile_fromTable`).
-/

set_option autoImplicit false

namespace EntityQuery

namespace Aliases

variable {aliases later : Aliases} {occurrence : Occurrence}

/-- The next alias is not yet the key of an entry. -/
theorem next_notMem_keys (aliases : Aliases) : aliases.next ∉ aliases.entries.map Prod.fst := by
  rw [entries_keys, List.mem_map]
  rintro ⟨number, inside, same⟩
  rw [List.mem_range, length_entries] at inside
  exact Nat.ne_of_lt inside (aliasName_injective same)

/-- One more occurrence is found under the next alias. -/
theorem lookup_entries_concat (one : later.occurrences = aliases.occurrences ++ [occurrence])
    (alias_ : String) :
    later.entries.lookup alias_ =
      if alias_ = aliases.next then some occurrence else aliases.entries.lookup alias_ := by
  rw [entries_of_occurrences one, List.lookup_append]
  by_cases same : alias_ = aliases.next
  · have absent : aliases.entries.lookup aliases.next = none := by
      rw [List.lookup_eq_none_iff]
      intro entry member
      have differs : aliases.next ≠ entry.1 := fun equal =>
        aliases.next_notMem_keys (equal ▸ List.mem_map_of_mem member)
      simpa using differs
    simp [same, absent]
  · rw [Dictionary.lookup_cons, if_neg same, if_neg same, List.lookup_nil, Option.or_none]

end Aliases

namespace AliasTable

variable {table : AliasTable} {aliases later : Aliases} {occurrence : Occurrence}

/-! ## What a table represents -/

/-- The counter of a table, and its maps from entities and from aliases, are those of the
occurrences. -/
structure Counts (table : AliasTable) (aliases : Aliases) : Prop where
  next : table.next = aliases.occurrences.length
  generated : ∀ entity, table.generated.find? entity = aliases.first? entity
  entities : ∀ alias_,
    table.entities.find? alias_ = (aliases.entries.lookup alias_).map Occurrence.entity
  result : table.result.entries.Perm aliases.entries

/-- A table answers as aliases do. -/
structure Represents (table : AliasTable) (aliases : Aliases) : Prop where
  counts : table.Counts aliases
  scopes : ∀ written, table.scopes.find? written = (aliases.resolve? written).map Binding.alias_
  /-- What a written name stands for is found under its alias. -/
  bound : ∀ written, ∀ binding ∈ aliases.resolve? written,
    table.entities.find? binding.alias_ = some binding.entity
  joins : table.joins = aliases.joins

theorem represents_empty : empty.Represents .empty where
  counts :=
    { next := rfl
      generated := fun _ => rfl
      entities := fun _ => rfl
      result := .refl _ }
  scopes _ := rfl
  bound _ _ found := nomatch found
  joins := rfl

theorem Counts.next_eq (counts : table.Counts aliases) : aliasName table.next = aliases.next :=
  congrArg aliasName counts.next

/-- **An alias that is allocated counts one more occurrence**, once the table has recorded it. -/
theorem Counts.allocate (counts : table.Counts aliases)
    (one : later.occurrences = aliases.occurrences ++ [occurrence]) :
    Counts { (table.allocate occurrence.entity).2 with
      result := table.result.insert (aliasName table.next) occurrence } later where
  next := by rw [one, List.length_append, ← counts.next]; rfl
  generated entity := by
    rw [Aliases.first?_concat one, ← counts.generated, ← counts.next_eq]
    exact Dictionary.find?_insertIfNew ..
  entities alias_ := by
    rw [Aliases.lookup_entries_concat one, apply_ite (Option.map Occurrence.entity),
      ← counts.entities, ← counts.next_eq]
    exact Dictionary.find?_insert ..
  result := by
    have fresh : aliasName table.next ∉ table.result.entries.map Prod.fst := by
      rw [(counts.result.map Prod.fst).mem_iff, counts.next_eq]
      exact aliases.next_notMem_keys
    rw [Aliases.entries_of_occurrences one, ← counts.next_eq]
    exact (Dictionary.insertEntry_perm fresh).trans
      ((counts.result.cons _).trans (List.perm_append_singleton ..).symm)

namespace Represents

/-- What a written name stands for keeps its entity when an alias is allocated. -/
theorem bound_allocate (same : table.Represents aliases) (entity : String) {written : String}
    {binding : Binding} (found : binding ∈ aliases.resolve? written) :
    (table.allocate entity).2.entities.find? binding.alias_ = some binding.entity := by
  have old := same.bound written binding found
  have other : binding.alias_ ≠ aliasName table.next := by
    intro next
    rw [same.counts.entities, Option.map_eq_some_iff] at old
    obtain ⟨occurrence, inside, -⟩ := old
    rw [next, same.counts.next_eq, Aliases.lookup_entries_iff] at inside
    exact aliases.next_notMem_keys (List.mem_map_of_mem inside)
  have kept := Dictionary.find?_insert table.entities (aliasName table.next) binding.alias_ entity
  rw [if_neg other] at kept
  exact kept.trans old

/-- A bound entry is given the alias that it has among the aliases, and is then represented. -/
theorem bind (same : table.Represents aliases) (entity : String) (written? : Option String) :
    (table.bind entity written?).1 = (aliases.bind entity written?).1 ∧
      (table.bind entity written?).2.Represents (aliases.bind entity written?).2 := by
  have one : (aliases.bind entity written?).2.occurrences =
      aliases.occurrences ++ [⟨entity, none⟩] := rfl
  have allocated := same.counts.allocate one
  have counts : (table.bind entity written?).2.Counts (aliases.bind entity written?).2 :=
    ⟨allocated.next, allocated.generated, allocated.entities, allocated.result⟩
  refine ⟨same.counts.next_eq, counts, fun written => ?_,
    fun written binding found => ?_, same.joins⟩
  · rw [Aliases.resolve?_bind, apply_ite (Option.map Binding.alias_), ← same.scopes,
      ← same.counts.next_eq]
    exact Dictionary.find?_insert ..
  · rw [Aliases.resolve?_bind] at found
    split at found
    · cases found
      rw [counts.entities, Aliases.lookup_entries_concat one, if_pos rfl]
      rfl
    · exact same.bound_allocate entity found

/-- A hop is answered with the alias that it has among the aliases, and its target is then
represented. -/
theorem join (same : table.Represents aliases) (owner : Entity) (ownerAlias : String)
    (column : Column) (target : Entity) :
    (table.join owner ownerAlias column target).1 =
        (aliases.join owner ownerAlias column target).1 ∧
      (table.join owner ownerAlias column target).2.Represents
        (aliases.join owner ownerAlias column target).2 := by
  have known := same.counts.generated target.name
  unfold AliasTable.join
  rcases aliases.join_cases owner ownerAlias column target with ⟨alias_, first, old⟩ | ⟨fresh, new⟩
  · rw [known, first, old]
    exact ⟨rfl, same⟩
  · rw [known, fresh, new]
    have one : (aliases.withJoin owner ownerAlias column target).occurrences =
        aliases.occurrences ++ [Aliases.hopOccurrence ownerAlias column target] := rfl
    have allocated := same.counts.allocate one
    refine ⟨same.counts.next_eq,
      ⟨allocated.next, allocated.generated, allocated.entities, allocated.result⟩, same.scopes,
      fun written binding found => same.bound_allocate target.name found, ?_⟩
    have added : (aliases.withJoin owner ownerAlias column target).joins =
        aliases.joins ++ [Aliases.joinOf owner ownerAlias column target aliases.next] := rfl
    rw [added, ← same.joins, ← same.counts.next_eq]
    rfl

theorem resolve?_eq (same : table.Represents aliases) (written : String) :
    table.resolve? written = aliases.meaning? written := by
  unfold resolve? Aliases.meaning?
  rw [same.scopes]
  cases found : aliases.resolve? written with
  | none => rfl
  | some binding =>
      have entity := same.bound written binding found
      simp [entity]

end Represents

/-! ## Calls -/

/-- The alias that is given on request, and the table after it. -/
def give (table : AliasTable) : Request → String × AliasTable
  | .bind entity written? => table.bind entity written?
  | .join owner ownerAlias column target => table.join owner ownerAlias column target

/-- What a table answers to a call, and the table after it. -/
def perform (table : AliasTable) : Call → Answer × AliasTable
  | .ask request => (.alias_ (table.give request).1, (table.give request).2)
  | .resolve written => (.meaning (table.resolve? written), table)

/-- What a table answers to calls one after another, and the table after them. -/
def run : List Call → AliasTable → List Answer × AliasTable
  | [], table => ([], table)
  | call :: rest, table =>
    let (answer, table) := table.perform call
    let (answers, table) := run rest table
    (answer :: answers, table)

/-- **A table answers a call as the aliases that it represents, and goes on representing them.** -/
theorem Represents.perform (same : table.Represents aliases) (call : Call) :
    (table.perform call).1 = (aliases.perform call).1 ∧
      (table.perform call).2.Represents (aliases.perform call).2 := by
  match call with
  | .ask (.bind entity written?) =>
      obtain ⟨answered, after⟩ := same.bind entity written?
      exact ⟨congrArg Answer.alias_ answered, after⟩
  | .ask (.join owner ownerAlias column target) =>
      obtain ⟨answered, after⟩ := same.join owner ownerAlias column target
      exact ⟨congrArg Answer.alias_ answered, after⟩
  | .resolve written => exact ⟨congrArg Answer.meaning (same.resolve?_eq written), same⟩

/-- The table represents aliases that match the log. -/
def Matches (log : List Request) (table : AliasTable) : Prop :=
  ∃ aliases, table.Represents aliases ∧ Aliases.Matches log aliases

namespace Matches

variable {log : List Request}

theorem empty : Matches [] AliasTable.empty :=
  ⟨.empty, represents_empty, .empty⟩

/-- **A call is answered as the log says, and the table after it matches the log after it.** -/
theorem perform (same : Matches log table) (call : Call) :
    (table.perform call).1 = call.expected log ∧
      Matches (record log call) (table.perform call).2 := by
  obtain ⟨aliases, represents, inLog⟩ := same
  obtain ⟨alike, represented⟩ := represents.perform call
  obtain ⟨expected, recorded⟩ := inLog.perform call
  exact ⟨alike.trans expected, _, represented, recorded⟩

/-- After calls one after another, the table matches the log of them all. -/
theorem run (same : Matches log table) (calls : List Call) :
    Matches (calls.foldl record log) (AliasTable.run calls table).2 := by
  induction calls generalizing log table with
  | nil => exact same
  | cons call rest ih => exact ih (same.perform call).2

/-- Each call is answered as the log of those before it says. -/
theorem answers (same : Matches log table) (calls : List Call) (place : Nat) :
    (AliasTable.run calls table).1[place]? =
      calls[place]?.map fun call => call.expected ((calls.take place).foldl record log) := by
  induction calls generalizing log table place with
  | nil => rfl
  | cons call rest ih =>
      obtain ⟨answered, after⟩ := same.perform call
      cases place with
      | zero => exact congrArg some answered
      | succ later => exact ih after later

end Matches

theorem length_run (calls : List Call) (table : AliasTable) :
    (run calls table).1.length = calls.length := by
  induction calls generalizing table with
  | nil => rfl
  | cons call rest ih => exact congrArg (· + 1) (ih _)

/-! ## Runs -/

/-- What a new table answers to calls, and the table after them, as the log of the calls has it. -/
structure FollowsLog (calls : List Call) (answers : List Answer) (table : AliasTable) : Prop where
  answered : answers.length = calls.length
  /-- The requests that allocate are given the aliases in the order of their numbers. -/
  numbered : ∀ (place : Nat) (request : Request), AllocatesAt calls place request →
    (log calls)[numberAt calls place]? = some request ∧
      answers[place]? = some (Answer.alias_ (aliasName (numberAt calls place)))
  /-- No alias is given to two of them. -/
  distinct : ∀ (place other : Nat) (request otherRequest : Request) (name : String),
    AllocatesAt calls place request → AllocatesAt calls other otherRequest →
    answers[place]? = some (Answer.alias_ name) → answers[other]? = some (Answer.alias_ name) →
    place = other
  /-- The result map has one entry for each of them, and no other. -/
  result : table.result.entries.Perm
    ((AliasTable.numbered (log calls)).map fun entry => (entry.1, entry.2.occurrence))
  keys : (table.result.entries.map Prod.fst).Nodup
  /-- A join is given the alias of the first request for its target, whether it allocates or not. -/
  shared : ∀ (place : Nat) (owner : Entity) (ownerAlias : String) (column : Column)
    (target : Entity), calls[place]? = some (Call.ask (.join owner ownerAlias column target)) →
    ∃ number, firstNumber? (log calls) target.name = some number ∧
      answers[place]? = some (Answer.alias_ (aliasName number))
  /-- The joins that allocate are recorded, in order, and no entity is joined twice. -/
  joins : table.joins = joinsOf (log calls)
  targets : (table.joins.map Join.target).Nodup
  /-- A written name stands for what the latest binding under it says. -/
  meanings : ∀ (place : Nat) (written : String), calls[place]? = some (Call.resolve written) →
    answers[place]? = some (Answer.meaning (latest? (log (calls.take place)) written))
  /-- A join changes the meaning of no name. -/
  steady : ∀ (owner : Entity) (ownerAlias : String) (column : Column) (target : Entity)
    (written : String),
    (table.join owner ownerAlias column target).2.resolve? written = table.resolve? written

/-- **An alias table is its log**: what a new table answers to any calls, and what it holds after
them, is what the log of the calls says. -/
theorem run_followsLog (calls : List Call) :
    FollowsLog calls (run calls empty).1 (run calls empty).2 := by
  obtain ⟨aliases, represents, matching⟩ := Matches.empty.run calls
  have answers := Matches.empty.answers calls
  have given : ∀ place request, AllocatesAt calls place request →
      (run calls empty).1[place]? = some (.alias_ (aliasName (numberAt calls place))) := by
    intro place request allocates
    rw [answers, allocates.here]
    exact congrArg some (expected_of_allocates allocates.allocates)
  have joins : (run calls empty).2.joins = joinsOf (log calls) :=
    represents.joins.trans matching.joins
  refine
    { answered := length_run calls empty
      numbered := fun place request allocates =>
        ⟨allocates.getElem?_log, given place request allocates⟩
      distinct := ?_
      result := matching.entries_eq ▸ represents.counts.result
      keys := Dictionary.nodup_keys _
      shared := ?_
      joins
      targets := joins ▸ nodup_targets_log calls
      meanings := ?_
      steady := ?_ }
  · intro place other request otherRequest name allocates allocatesToo first second
    rw [given place request allocates, ← second, given other otherRequest allocatesToo] at first
    refine allocates.place_eq allocatesToo (aliasName_injective ?_)
    simpa using first
  · intro place owner ownerAlias column target here
    obtain ⟨number, first, expected⟩ :=
      expected_join (log (calls.take place)) owner ownerAlias column target
    rw [← log_take_succ here] at first
    refine ⟨number, firstNumber?_mono (prefix_log_take calls _) first, ?_⟩
    rw [answers, here]
    exact congrArg some expected
  · intro place written here
    rw [answers, here]
    rfl
  · intro owner ownerAlias column target written
    rw [(represents.join owner ownerAlias column target).2.resolve?_eq, represents.resolve?_eq,
      Aliases.meaning?, Aliases.resolve?_join]
    rfl

/-! ## Queries -/

theorem run_concat (calls : List Call) (call : Call) (table : AliasTable) :
    (run (calls ++ [call]) table).2 = ((run calls table).2.perform call).2 := by
  induction calls generalizing table with
  | nil => rfl
  | cons first rest ih => exact ih _

/-- **All aliases that a query can reach are those of a table after some calls.** -/
theorem exists_represents_of_reached {schema : Schema} (reached : aliases.Reached schema) :
    ∃ calls, (run calls empty).2.Represents aliases := by
  induction reached with
  | empty => exact ⟨[], represents_empty⟩
  | @entry aliases entity _ _ written? ih =>
      obtain ⟨calls, same⟩ := ih
      refine ⟨calls ++ [.ask (.bind entity.name written?)], ?_⟩
      rw [run_concat]
      exact (same.bind entity.name written?).2
  | @hop aliases later _ step ih =>
      obtain ⟨calls, same⟩ := ih
      cases step with
      | @along owner ownerAlias column target hop =>
          refine ⟨calls ++ [.ask (.join owner ownerAlias column target)], ?_⟩
          rw [run_concat]
          exact (same.join owner ownerAlias column target).2

/-- The result map of a table has the entries of the aliases in ascending order of their texts. -/
theorem Counts.result_eq (counts : table.Counts aliases) :
    table.result.entries = sortedByAlias aliases.entries := by
  have perm : table.result.entries.Perm (sortedByAlias aliases.entries) :=
    counts.result.trans (List.mergeSort_perm _ _).symm
  have ascending : table.result.entries.Pairwise fun earlier later => earlier.1 ≤ later.1 :=
    table.result.ascending.imp Std.le_of_lt
  refine perm.eq_of_pairwise (fun first second firstIn secondIn before after => ?_) ascending
    (pairwise_le_sortedByAlias aliases.entries)
  -- Entries with one key are one, as no key is repeated.
  have same := String.le_antisymm before after
  have firstFound := (lookup_eq_some_iff_mem table.result.nodup_keys).mpr firstIn
  have secondFound :=
    (lookup_eq_some_iff_mem table.result.nodup_keys).mpr (perm.mem_iff.mpr secondIn)
  rw [same, secondFound] at firstFound
  exact Prod.ext same (Option.some.inj firstFound).symm

end AliasTable

/-- **The joins and the alias map of a compiled query are those of a table after some calls.** -/
theorem Schema.compile_fromTable (schema : Schema) (query : String) (compiled : Compiled)
    (accepted : schema.compile query = .ok compiled) :
    ∃ calls, compiled.select.joins = (AliasTable.run calls .empty).2.joins.map Join.toLeftJoin ∧
      (AliasTable.run calls .empty).2.result.entries = sortedByAlias compiled.aliases := by
  cases queryRun_of_ok accepted with
  | clauses run split others =>
      obtain ⟨calls, same⟩ :=
        AliasTable.exists_represents_of_reached (others.reached (run.reached .empty))
      exact ⟨calls, congrArg _ same.joins.symm, same.counts.result_eq⟩

end EntityQuery

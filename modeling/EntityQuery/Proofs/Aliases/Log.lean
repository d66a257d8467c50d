import EntityQuery.Proofs.Aliases.Hops

/-!
# The log of an alias table

An alias table is called for three things: to bind an entry of a table clause, to join the target of
a hop, and to resolve a written name. The first two are requests for an alias. The log of a sequence
of calls (`log`) has the requests that allocate one, in order: every binding, and every join of an
entity that no request before has allocated. It says nothing of tables, joins or bindings.

All that is answered to a call can be read off the log of the calls before it (`Call.expected`), and
a request that allocates has the same place in the log of any longer sequence
(`AllocatesAt.getElem?_log`). Aliases match a log if they have its occurrences and its joins and
resolve names as it does. No aliases match the empty log, and each call keeps that they match
(`Matches.perform`).
-/

set_option autoImplicit false

namespace EntityQuery

namespace AliasTable

/-- A request for an alias. -/
inductive Request where
  /-- For an entry of a table clause, with the name written after it. -/
  | bind (entity : String) (written? : Option String)
  /-- For the target of a hop along a column of an owner. -/
  | join (owner : Entity) (ownerAlias : String) (column : Column) (target : Entity)

/-- A call of an alias table. -/
inductive Call where
  | ask (request : Request)
  | resolve (written : String)

/-- What an alias table answers to a call. -/
inductive Answer where
  /-- The alias that was requested. -/
  | alias_ (name : String)
  /-- The entity and the alias that a written name stands for. -/
  | meaning (found? : Option (String × String))
  deriving DecidableEq

/-! ## The log -/

/-- The entity that an alias is requested for. -/
def Request.entity : Request → String
  | .bind entity _ => entity
  | .join _ _ _ target => target.name

/-- Every binding allocates an alias, and a join does if none was allocated for its target. -/
def Request.allocates (log : List Request) : Request → Bool
  | .bind _ _ => true
  | .join _ _ _ target => log.all fun earlier => earlier.entity != target.name

/-- The log after a call. -/
def record (log : List Request) : Call → List Request
  | .ask request => if request.allocates log then log ++ [request] else log
  | .resolve _ => log

/-- The requests that allocate an alias, in the order of the calls. -/
def log (calls : List Call) : List Request :=
  calls.foldl record []

/-- The requests of a log, each under the alias of its number. -/
def numbered (log : List Request) : List (String × Request) :=
  log.zipIdx.map fun (request, number) => (aliasName number, request)

/-- What the alias map says of a request: its entity, and of a join the owner and the property. -/
def Request.occurrence : Request → Occurrence
  | .bind entity _ => ⟨entity, none⟩
  | .join _ ownerAlias column target => ⟨target.name, some ⟨ownerAlias, column.property⟩⟩

/-- The join that a request adds under an alias. -/
def Request.join? (alias_ : String) : Request → Option Join
  | .bind _ _ => none
  | .join owner ownerAlias column target =>
    some (Aliases.joinOf owner ownerAlias column target alias_)

/-- What a written name stands for by a request: by a binding under that name, its entity. -/
def Request.meaning? (written alias_ : String) : Request → Option (String × String)
  | .bind entity written? =>
    if written = written?.getD entity then some (entity, alias_) else none
  | .join _ _ _ _ => none

/-- The joins that a log adds. -/
def joinsOf (log : List Request) : List Join :=
  (numbered log).filterMap fun entry => entry.2.join? entry.1

/-- What a written name stands for by the latest binding under it. -/
def latest? (log : List Request) (written : String) : Option (String × String) :=
  (numbered log).reverse.findSome? fun entry => entry.2.meaning? written entry.1

/-- The number of the first request for an entity. -/
def firstNumber? (log : List Request) (entity : String) : Option Nat :=
  log.findIdx? fun request => request.entity == entity

/-- What is to be answered to a call after a log. -/
def Call.expected (log : List Request) : Call → Answer
  | .ask (.bind _ _) => .alias_ (aliasName log.length)
  | .ask (.join _ _ _ target) =>
    .alias_ (aliasName ((firstNumber? log target.name).getD log.length))
  | .resolve written => .meaning (latest? log written)

theorem numbered_concat (log : List Request) (request : Request) :
    numbered (log ++ [request]) = numbered log ++ [(aliasName log.length, request)] := by
  simp [numbered, List.zipIdx_append]

theorem joinsOf_concat (log : List Request) (request : Request) :
    joinsOf (log ++ [request]) = joinsOf log ++ (request.join? (aliasName log.length)).toList := by
  rw [joinsOf, numbered_concat, List.filterMap_append]
  cases added : request.join? (aliasName log.length) <;> simp [joinsOf, added]

theorem latest?_concat (log : List Request) (request : Request) (written : String) :
    latest? (log ++ [request]) written =
      (request.meaning? written (aliasName log.length)).or (latest? log written) := by
  rw [latest?, numbered_concat, List.reverse_concat, List.findSome?_cons]
  cases request.meaning? written (aliasName log.length) <;> rfl

/-- A join allocates exactly if the log has no request for its target. -/
theorem allocates_join_iff {log : List Request} {owner : Entity} {ownerAlias : String}
    {column : Column} {target : Entity} :
    (Request.join owner ownerAlias column target).allocates log = true ↔
      firstNumber? log target.name = none := by
  simp [Request.allocates, firstNumber?]

/-- A request that allocates is to be given the alias of the next number. -/
theorem expected_of_allocates {log : List Request} {request : Request}
    (allocates : request.allocates log = true) :
    (Call.ask request).expected log = .alias_ (aliasName log.length) := by
  cases request with
  | bind => rfl
  | join => rw [Call.expected, allocates_join_iff.mp allocates, Option.getD_none]

/-! ## Logs of longer and longer sequences -/

theorem prefix_record (log : List Request) (call : Call) : log <+: record log call := by
  cases call with
  | resolve written => exact List.prefix_rfl
  | ask request =>
      rw [record]
      split
      · exact List.prefix_append _ _
      · exact List.prefix_rfl

/-- The log of a sequence goes on behind that of its beginning. -/
theorem prefix_log (log : List Request) (calls : List Call) : log <+: calls.foldl record log := by
  induction calls generalizing log with
  | nil => exact List.prefix_rfl
  | cons call rest ih => exact (prefix_record log call).trans (ih _)

theorem prefix_log_take (calls : List Call) (place : Nat) :
    log (calls.take place) <+: log calls := by
  conv => rhs; rw [log, ← List.take_append_drop place calls, List.foldl_append]
  exact prefix_log _ _

theorem log_take_succ {calls : List Call} {place : Nat} {call : Call}
    (here : calls[place]? = some call) :
    log (calls.take (place + 1)) = record (log (calls.take place)) call := by
  rw [log, List.take_add_one, here, List.foldl_append]
  rfl

/-- The first request for an entity stays the first when a log goes on. -/
theorem firstNumber?_mono {log longer : List Request} (more : log <+: longer) {entity : String}
    {number : Nat} (first : firstNumber? log entity = some number) :
    firstNumber? longer entity = some number := by
  obtain ⟨added, rfl⟩ := more
  rw [firstNumber?] at first ⊢
  rw [List.findIdx?_append, first]
  rfl

/-- The target of a join that a log adds is the entity of one of its requests. -/
theorem exists_request_of_join {log : List Request} {join : Join} (member : join ∈ joinsOf log) :
    ∃ request ∈ log, request.entity = join.target := by
  obtain ⟨entry, inside, added⟩ := List.mem_filterMap.mp member
  obtain ⟨⟨request, number⟩, place, rfl⟩ := List.mem_map.mp inside
  refine ⟨request, List.fst_mem_of_mem_zipIdx place, ?_⟩
  cases request with
  | bind => cases added
  | join =>
      cases added
      rfl

/-- A call keeps that a log joins each entity once at most. -/
theorem nodup_targets_record {log : List Request} (call : Call)
    (once : ((joinsOf log).map Join.target).Nodup) :
    ((joinsOf (record log call)).map Join.target).Nodup := by
  match call with
  | .resolve _ => exact once
  | .ask (.bind entity written?) =>
      have allocates : (Request.bind entity written?).allocates log = true := rfl
      rw [record, if_pos allocates, joinsOf_concat]
      simpa [Request.join?] using once
  | .ask (.join owner ownerAlias column target) =>
      rw [record]
      split
      · next allocates =>
        rw [joinsOf_concat, Request.join?, List.map_append, List.nodup_append]
        refine ⟨once, List.nodup_singleton _, fun first old second new => ?_⟩
        obtain ⟨join, member, rfl⟩ := List.mem_map.mp old
        obtain ⟨request, inside, same⟩ := exists_request_of_join member
        have differs : request.entity ≠ target.name := by
          simpa using List.all_eq_true.mp allocates request inside
        rw [List.mem_singleton.mp new, ← same]
        exact differs
      · exact once

theorem nodup_targets_log (calls : List Call) : ((joinsOf (log calls)).map Join.target).Nodup := by
  have kept : ∀ (rest : List Call) (log : List Request), ((joinsOf log).map Join.target).Nodup →
      ((joinsOf (rest.foldl record log)).map Join.target).Nodup := by
    intro rest
    induction rest with
    | nil => exact fun _ once => once
    | cons call rest ih => exact fun log once => ih _ (nodup_targets_record call once)
  exact kept calls [] List.nodup_nil

/-! ## Requests that allocate -/

/-- The call in a place of a sequence is a request that allocates an alias. -/
structure AllocatesAt (calls : List Call) (place : Nat) (request : Request) : Prop where
  here : calls[place]? = some (.ask request)
  allocates : request.allocates (log (calls.take place)) = true

/-- How many calls before a place allocate an alias. -/
def numberAt (calls : List Call) (place : Nat) : Nat :=
  (log (calls.take place)).length

namespace AllocatesAt

variable {calls : List Call} {place : Nat} {request : Request}

theorem log_succ (allocates : AllocatesAt calls place request) :
    log (calls.take (place + 1)) = log (calls.take place) ++ [request] := by
  rw [log_take_succ allocates.here, record, if_pos allocates.allocates]

/-- The request has its number in the log of all calls. -/
theorem getElem?_log (allocates : AllocatesAt calls place request) :
    (log calls)[numberAt calls place]? = some request := by
  obtain ⟨added, whole⟩ := prefix_log_take calls (place + 1)
  rw [← whole, allocates.log_succ, numberAt]
  simp

/-- A request that allocates later has a higher number. -/
theorem numberAt_lt (allocates : AllocatesAt calls place request) {later : Nat}
    (before : place < later) : numberAt calls place < numberAt calls later := by
  have longer := prefix_log_take (calls.take later) (place + 1)
  rw [List.take_take, Nat.min_eq_left before, allocates.log_succ] at longer
  have lengths := longer.length_le
  rw [List.length_append, List.length_singleton] at lengths
  exact lengths

/-- Two requests that allocate in different places have different numbers. -/
theorem place_eq (allocates : AllocatesAt calls place request) {other : Nat}
    {otherRequest : Request} (allocatesToo : AllocatesAt calls other otherRequest)
    (same : numberAt calls place = numberAt calls other) : place = other := by
  rcases Nat.lt_trichotomy place other with before | rfl | after
  · exact absurd same (Nat.ne_of_lt (allocates.numberAt_lt before))
  · rfl
  · exact absurd same.symm (Nat.ne_of_lt (allocatesToo.numberAt_lt after))

end AllocatesAt

/-- A join is answered with the alias of the first request for its target in the log that it leaves.
-/
theorem expected_join (log : List Request) (owner : Entity) (ownerAlias : String) (column : Column)
    (target : Entity) : ∃ number,
    firstNumber? (record log (.ask (.join owner ownerAlias column target))) target.name =
      some number ∧
    (Call.ask (.join owner ownerAlias column target)).expected log =
      .alias_ (aliasName number) := by
  rw [record, Call.expected]
  cases first : firstNumber? log target.name with
  | some number =>
      rw [if_neg (by simp [allocates_join_iff, first])]
      exact ⟨number, first, rfl⟩
  | none =>
      rw [if_pos (allocates_join_iff.mpr first)]
      refine ⟨log.length, ?_, rfl⟩
      rw [firstNumber?] at first ⊢
      rw [List.findIdx?_append, first]
      simp [Request.entity]

end AliasTable

/-! ## Aliases that match a log -/

namespace Aliases

open AliasTable (Request Call Answer joinsOf latest? firstNumber? numbered record)
open AliasTable (numbered_concat joinsOf_concat latest?_concat allocates_join_iff)

/-- The entity and the alias that a written name stands for. -/
def meaning? (aliases : Aliases) (written : String) : Option (String × String) :=
  (aliases.resolve? written).map fun binding => (binding.entity, binding.alias_)

/-- The alias that is given on request, and the aliases after it. -/
def give (aliases : Aliases) : Request → String × Aliases
  | .bind entity written? => aliases.bind entity written?
  | .join owner ownerAlias column target => aliases.join owner ownerAlias column target

/-- What is answered to a call, and the aliases after it. -/
def perform (aliases : Aliases) : Call → Answer × Aliases
  | .ask request => (.alias_ (aliases.give request).1, (aliases.give request).2)
  | .resolve written => (.meaning (aliases.meaning? written), aliases)

/-- The table has the occurrences and the joins of the log, and resolves names as the log does. -/
structure Matches (log : List Request) (aliases : Aliases) : Prop where
  occurrences : aliases.occurrences = log.map Request.occurrence
  joins : aliases.joins = joinsOf log
  meanings : ∀ written, aliases.meaning? written = latest? log written

namespace Matches

variable {log : List Request} {aliases : Aliases}

theorem empty : Matches [] Aliases.empty :=
  ⟨rfl, rfl, fun _ => rfl⟩

theorem next_eq (same : Matches log aliases) : aliases.next = aliasName log.length := by
  rw [next, same.occurrences, List.length_map]

/-- The first occurrence of an entity has the number of the first request for it. -/
theorem first?_eq (same : Matches log aliases) (entity : String) :
    aliases.first? entity = (firstNumber? log entity).map aliasName := by
  have entities : ∀ request : Request, request.occurrence.entity = request.entity := by
    intro request
    cases request <;> rfl
  simp only [first?, firstNumber?, same.occurrences, List.findIdx?_map, Function.comp_def, entities]

theorem entries_eq (same : Matches log aliases) :
    aliases.entries = (numbered log).map fun entry => (entry.1, entry.2.occurrence) := by
  simp only [entries, numbered, same.occurrences, List.zipIdx_map, List.map_map]
  rfl

theorem bind (same : Matches log aliases) (entity : String) (written? : Option String) :
    Matches (log ++ [.bind entity written?]) (aliases.bind entity written?).2 where
  occurrences := by
    rw [List.map_append, ← same.occurrences]
    rfl
  joins := by
    rw [joinsOf_concat, ← same.joins]
    exact (List.append_nil _).symm
  meanings written := by
    rw [meaning?, resolve?_bind, latest?_concat, ← same.meanings, Request.meaning?, same.next_eq]
    split <;> rfl

theorem withJoin (same : Matches log aliases) (owner : Entity) (ownerAlias : String)
    (column : Column) (target : Entity) :
    Matches (log ++ [.join owner ownerAlias column target])
      (aliases.withJoin owner ownerAlias column target) where
  occurrences := by
    rw [List.map_append, ← same.occurrences]
    rfl
  joins := by
    rw [joinsOf_concat, ← same.joins, ← same.next_eq]
    rfl
  meanings written := by
    rw [latest?_concat, ← same.meanings]
    rfl

/-- **A call is answered as the log says, and the table after it matches the log after it.** -/
theorem perform (same : Matches log aliases) (call : Call) :
    (aliases.perform call).1 = call.expected log ∧
      Matches (record log call) (aliases.perform call).2 := by
  match call with
  | .ask (.bind entity written?) =>
      exact ⟨congrArg Answer.alias_ same.next_eq, same.bind entity written?⟩
  | .ask (.join owner ownerAlias column target) =>
      have allocates : (Request.join owner ownerAlias column target).allocates log = true ↔
          firstNumber? log target.name = none := allocates_join_iff
      have named := same.first?_eq target.name
      simp only [Aliases.perform, give, Call.expected, record]
      rcases aliases.join_cases owner ownerAlias column target with
        ⟨alias_, first, old⟩ | ⟨fresh, new⟩
      · obtain ⟨number, found, rfl⟩ := Option.map_eq_some_iff.mp (named.symm.trans first)
        rw [old, found, if_neg (by simp [allocates, found])]
        exact ⟨rfl, same⟩
      · have absent := Option.map_eq_none_iff.mp (named.symm.trans fresh)
        rw [new, absent, if_pos (allocates.mpr absent), same.next_eq]
        exact ⟨rfl, same.withJoin owner ownerAlias column target⟩
  | .resolve written =>
      exact ⟨congrArg Answer.meaning (same.meanings written), same⟩

end Matches

end Aliases

end EntityQuery

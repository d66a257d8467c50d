import EntityQuery.Proofs.Mutations.Updates
import EntityQuery.Proofs.Resolution.Faults
import EntityQuery.Proofs.Tables.Addressing

/-!
# Truthful errors

An error says why a query or an instance cannot be mapped to a statement, and what it says is so.

A query that cannot be compiled is malformed, or names an entity that is not registered, or has a
path with a fault (`QueryFault`). What a path can be wrong about depends on the entries of the table
clause that have been read when it is resolved: those before the place where the scanner stops, or
all of them if it has read the clause to its end (`StopsAt`).

An instance that cannot be inserted is of an entity that is not registered; for an update or a
delete the identifier may be missing as well, and for an update a value (`MutationFault`).

The main statements are `compile_fault`, `mutate_fault`, and `errors_truthful`, which has both.
-/

set_option autoImplicit false

namespace EntityQuery

open Registry
open Aliases (Reached)
open Query (Token)

/-! ## Queries -/

/-- How far the table clause of a query has been read when there is a problem: up to a place where
the scanner stops for the problem, or to its end. -/
structure StopsAt (schema : Schema) (query : String) (read rest : List Token)
    (problem : MappingError) : Prop where
  tokens : ∃ clauses, Query.splitClauses query = .ok clauses ∧
    Query.tokenize .table clauses.table = .ok (read ++ rest)
  stops : ∃ state aliases,
    TableScan.Runs schema ⟨.entity, read ++ rest, .empty⟩ ⟨state, rest, aliases⟩ ∧
      (rest = [] ∨ TableScan.Blocked schema ⟨state, rest, aliases⟩ problem)

/-- An entity is expected after these tokens of a table clause: at its start, after a comma and
after `join`. -/
def ExpectsEntity (read : List Token) : Prop :=
  read = [] ∨ ∃ before separator, read = before ++ [separator] ∧ separator.isSeparator = true

/-- What is wrong with a query. -/
inductive QueryFault (schema : Schema) (query : String) : MappingError → Prop
  | malformedQuery (detail : String) : QueryFault schema query (.malformedQuery detail)
  | malformedJoin (detail : String) : QueryFault schema query (.malformedJoin detail)
  /-- Where the table clause names an entity, it has the name of none that is registered. -/
  | entry {read rest : List Token} {token : Token}
      (stops : StopsAt schema query read (token :: rest) (.unknownEntity token.lexeme))
      (place : ExpectsEntity read) (plain : token.isConnective = false)
      (unregistered : schema.lookup token.lexeme = none) :
      QueryFault schema query (.unknownEntity token.lexeme)
  /-- A path has a fault over the names of the entries that have been read. -/
  | path {read rest : List Token} {problem : MappingError}
      (stops : StopsAt schema query read rest problem)
      (fault : PathFault schema ((tableEntries .entity read).map TableEntry.written) problem) :
      QueryFault schema query problem

namespace TableScan

variable {schema : Schema}

/-- The scanner expects an entity where the clause starts and after a separator. -/
theorem Runs.expectsEntity {tokens rest : List Token} {aliases later : Aliases}
    (runs : Runs schema ⟨.entity, tokens, aliases⟩ ⟨.entity, rest, later⟩) :
    ∃ read, tokens = read ++ rest ∧ ExpectsEntity read := by
  rcases Relation.ReflTransGen.cases_tail runs with same | ⟨middle, before, step⟩
  · cases same
    exact ⟨[], rfl, .inl rfl⟩
  · cases step with
    | @separator state token _ _ separator =>
        obtain ⟨read, whole, _⟩ := Runs.cut before
        exact ⟨read ++ [token], by simpa using whole, .inr ⟨read, token, rfl, separator⟩⟩

/-- What the scanner has read gives the aliases that it has then. -/
theorem Runs.reads {tokens rest : List Token} {state : TableState} {aliases : Aliases}
    (runs : Runs schema ⟨.entity, tokens, .empty⟩ ⟨state, rest, aliases⟩) :
    ∃ read, tokens = read ++ rest ∧ Reached schema aliases ∧
      (tableEntries .entity read).map TableEntry.written ⊆ aliases.names := by
  obtain ⟨read, whole, accepted⟩ := runs.cut
  obtain ⟨items, parts⟩ := ok_iff_runs.mpr ⟨state, accepted⟩
  exact ⟨read, whole, (Registry.tableRun_of_ok .empty parts).reached .empty,
    fun name => (Registry.adds_of_tableItems parts).mem_written_iff.mpr⟩

end TableScan

namespace Schema

variable {schema : Schema} {query : String} {problem : MappingError}

/-- **Where the scanner stops there is a fault.** -/
theorem fault_of_blocked {clauses : Query.Clauses} {tokens : List Token} {last : TableScan}
    (split : Query.splitClauses query = .ok clauses)
    (scanned : Query.tokenize .table clauses.table = .ok tokens)
    (runs : TableScan.Runs schema ⟨.entity, tokens, .empty⟩ last)
    (blocked : TableScan.Blocked schema last problem) : QueryFault schema query problem := by
  obtain ⟨state, rest, aliases⟩ := last
  obtain ⟨read, rfl, reached, names⟩ := TableScan.Runs.reads runs
  have stops : StopsAt schema query read rest problem :=
    ⟨⟨clauses, split, scanned⟩, state, aliases, runs, .inr blocked⟩
  have path : PathFault schema aliases.names problem → QueryFault schema query problem :=
    fun fault => .path stops (fault.anti names)
  cases blocked with
  | entity plain unknown =>
      obtain ⟨unregistered, rfl⟩ := lookup_of_unknown unknown
      obtain ⟨others, same, place⟩ := TableScan.Runs.expectsEntity runs
      rw [List.append_cancel_right same] at stops
      exact .entry stops place plain unregistered
  | incomplete => exact .malformedJoin _
  | left _ _ fails => exact path (field_fault reached fails)
  | right _ _ leftOk fails =>
      have kept := (field_keeps leftOk).names_eq
      exact path (kept ▸ field_fault ((field_resolved reached leftOk).reached reached) fails)
  | other _ fails => exact path (token_fault reached fails)

/-- A fault of a clause behind the table clause is one over all of its entries. -/
theorem fault_of_clause {clauses : Query.Clauses} {first : Sql.TableRef} {tail : List Sql.TableItem}
    {bound : Aliases} (split : Query.splitClauses query = .ok clauses)
    (tableOk : schema.tableClause clauses.table .empty = .ok ((first, tail), bound))
    (fault : ClauseFault schema bound.names problem) : QueryFault schema query problem := by
  cases fault with
  | text detail => exact .malformedQuery detail
  | path fault =>
      obtain ⟨tokens, items, scanned, parts, _⟩ := exists_items_of_tableClause tableOk
      obtain ⟨final, runs⟩ := TableScan.ok_iff_runs.mp ⟨items, parts⟩
      obtain ⟨read, whole, _, names⟩ := TableScan.Runs.reads runs
      subst whole
      exact .path ⟨⟨clauses, split, scanned⟩, final, bound, runs, .inl rfl⟩ (fault.anti names)

theorem tableClause_fault {clauses : Query.Clauses} (split : Query.splitClauses query = .ok clauses)
    (fails : schema.tableClause clauses.table .empty = .error problem) :
    QueryFault schema query problem := by
  cases scanned : Query.tokenize .table clauses.table with
  | error reason =>
      rw [tableClause, scanned] at fails
      cases fails
      exact .malformedQuery _
  | ok tokens =>
      rw [tableClause_eq_bind scanned] at fails
      rcases error_of_bind fails with inParts | ⟨parts, _, last⟩
      · obtain ⟨last, runs, blocked⟩ := TableScan.error_iff_runs.mp inParts
        exact fault_of_blocked split scanned runs blocked
      · split at last
        · cases last
        · cases last
          exact .malformedQuery _

/-- **A query that cannot be compiled has the fault that its error says.** -/
theorem compile_fault (fails : schema.compile query = .error problem) :
    QueryFault schema query problem := by
  rcases error_of_bind fails with unread | ⟨clauses, split, inClauses⟩
  · obtain ⟨detail, rfl⟩ := exists_detail_of_ofText unread
    exact .malformedQuery detail
  · replace split := ok_of_mapError split
    rcases error_of_bind inClauses with inTable | ⟨⟨⟨first, tail⟩, bound⟩, tableOk, others⟩
    · exact tableClause_fault split inTable
    · obtain ⟨items, run, _⟩ := tableRun_of_tableClause .empty tableOk
      have reached := run.reached .empty
      have behind : ClauseFault schema bound.names problem → QueryFault schema query problem :=
        fault_of_clause split tableOk
      rcases error_of_bind others with inSelect | ⟨⟨columns, selected⟩, selectOk, others⟩
      · exact behind (selectClause_fault reached inSelect)
      · have shown := (selectClause_resolved reached selectOk).reached reached
        have kept := selectClause_keeps selectOk
        rcases error_of_bind others with inFilter | ⟨⟨filter, filtered⟩, filterOk, others⟩
        · exact behind (kept.names_eq ▸ condition_fault shown inFilter)
        · have keptToo := kept.trans (condition_keeps filterOk)
          rcases error_of_bind others with inOrder | ⟨_, _, same⟩
          · exact behind
              (keptToo.names_eq ▸
                condition_fault ((condition_resolved shown filterOk).reached shown) inOrder)
          · cases same

end Schema

/-! ## Mutations -/

/-- What is wrong with a mutation of an instance. -/
inductive MutationFault (schema : Schema) (instance_ : Instance) : Mutation → MappingError → Prop
  | unregistered {mutation : Mutation} (unregistered : schema.lookup instance_.entity = none) :
      MutationFault schema instance_ mutation (.unknownEntity instance_.entity)
  | updateUnidentified {entity : Entity} (registered : schema.lookup instance_.entity = some entity)
      (unidentified : entity.identifier? = none) :
      MutationFault schema instance_ .update (.missingIdentifier entity.name)
  | deleteUnidentified {entity : Entity} (registered : schema.lookup instance_.entity = some entity)
      (unidentified : entity.identifier? = none) :
      MutationFault schema instance_ .delete (.missingIdentifierConfig entity.name)
  /-- The row that is updated or deleted has an identifier without a value. -/
  | unvalued {mutation : Mutation} {entity : Entity} {property : String}
      (finds : mutation = .update ∨ mutation = .delete)
      (registered : schema.lookup instance_.entity = some entity)
      (identified : entity.identifier? = some property) (lacks : instance_.Lacks property) :
      MutationFault schema instance_ mutation (.missingIdentifierValue entity.name)
  /-- A column that is no foreign key and does not allow null has no value. -/
  | null {entity : Entity} {column : Column}
      (registered : schema.lookup instance_.entity = some entity)
      (member : column ∈ entity.columns) (keyless : column.reference? = none)
      (strict : column.nullable = false) (lacks : instance_.Lacks column.property) :
      MutationFault schema instance_ .update (.nullNotAllowed entity.name column.property)

namespace Schema

variable {schema : Schema} {query : String} {instance_ : Instance} {entity : Entity}
  {problem : MappingError}

theorem update_fault (registered : schema.lookup instance_.entity = some entity)
    (fails : entity.update instance_ = .error problem) :
    MutationFault schema instance_ .update problem := by
  cases identified : entity.identifierColumn? with
  | none =>
      rw [Entity.update, identified] at fails
      cases fails
      exact .updateUnidentified registered
        ((wellFormed_of_lookup registered).unidentified identified)
  | some identifier =>
      rw [Entity.update_eq identified, Entity.updateOf] at fails
      split at fails
      · next refused =>
        cases fails
        obtain ⟨column, first, rfl⟩ := Option.map_eq_some_iff.mp refused
        obtain ⟨member, keyless⟩ := List.mem_filter.mp (List.mem_of_find?_eq_some first)
        obtain ⟨lacks, strict⟩ := Entity.cannotTake_iff.mp (List.find?_some first)
        exact .null registered member (by simpa [Column.isForeignKey] using keyless) strict lacks
      · obtain ⟨lacks, rfl⟩ := Entity.identifierValue_fault (error_of_shown fails)
        exact .unvalued (.inl rfl) registered
          (Entity.identifier?_of_identifierColumn? identified) lacks

theorem delete_fault (registered : schema.lookup instance_.entity = some entity)
    (fails : entity.delete instance_ = .error problem) :
    MutationFault schema instance_ .delete problem := by
  unfold Entity.delete at fails
  split at fails
  · next unidentified =>
    cases fails
    exact .deleteUnidentified registered
      ((wellFormed_of_lookup registered).unidentified unidentified)
  · next identifier identified =>
    rcases error_of_bind fails with unvalued | ⟨_, _, same⟩
    · obtain ⟨lacks, rfl⟩ := Entity.identifierValue_fault unvalued
      exact .unvalued (.inr rfl) registered
        (Entity.identifier?_of_identifierColumn? identified) lacks
    · cases same

/-- **An instance that cannot be mapped to a statement has the fault that the error says.** -/
theorem mutate_fault {mutation : Mutation}
    (fails : schema.mutate mutation instance_ = .error problem) :
    MutationFault schema instance_ mutation problem := by
  unfold mutate at fails
  split at fails
  · next unregistered =>
    cases fails
    exact .unregistered unregistered
  · next entity registered =>
    cases mutation with
    | insert => cases fails
    | update => exact update_fault registered (error_of_shown fails)
    | delete => exact delete_fault registered (error_of_shown fails)

/-- What is wrong with a query is never what can be wrong with an instance. -/
theorem ne_of_queryFault (fault : QueryFault schema query problem) (entity property : String) :
    problem ≠ .missingIdentifier entity ∧ problem ≠ .missingIdentifierValue entity ∧
      problem ≠ .nullNotAllowed entity property := by
  cases fault with
  | malformedQuery | malformedJoin | entry => exact ⟨nofun, nofun, nofun⟩
  | path _ fault => cases fault <;> exact ⟨nofun, nofun, nofun⟩

/-- **Errors are truthful.** Where a query cannot be compiled or an instance cannot be mapped, the
names in the error are those of what is wrong with it. No query is told that a value is missing, and
no insert fails but for an entity that is not registered. -/
theorem errors_truthful (schema : Schema) :
    (∀ query problem, schema.compile query = .error problem → QueryFault schema query problem) ∧
    (∀ query entity property, schema.compile query ≠ .error (.missingIdentifier entity) ∧
      schema.compile query ≠ .error (.missingIdentifierValue entity) ∧
      schema.compile query ≠ .error (.nullNotAllowed entity property)) ∧
    (∀ mutation instance_ problem, schema.mutate mutation instance_ = .error problem →
      MutationFault schema instance_ mutation problem) ∧
    ∀ instance_ problem, schema.mutate .insert instance_ = .error problem →
      schema.lookup instance_.entity = none ∧ problem = .unknownEntity instance_.entity := by
  refine ⟨fun _ _ => compile_fault, fun query entity property => ?_, fun _ _ _ => mutate_fault,
    fun instance_ problem fails => ?_⟩
  · have other : ∀ problem, schema.compile query = .error problem → _ := fun problem fails =>
      ne_of_queryFault (compile_fault fails) entity property
    exact ⟨fun fails => (other _ fails).1 rfl, fun fails => (other _ fails).2.1 rfl,
      fun fails => (other _ fails).2.2 rfl⟩
  · cases mutate_fault fails with
    | unregistered unregistered => exact ⟨unregistered, rfl⟩
    | unvalued finds => rcases finds with impossible | impossible <;> cases impossible

/-- A condition before the entry whose name it uses, and a tag that has no identifier to be deleted
by. -/
theorem errors_truthful_shops :
    Sample.schema.compile "select s.id from Shop s join Tag t on s.area = a.id, Area a" =
        .error (.unknownAlias "a") ∧
      QueryFault Sample.schema "select s.id from Shop s join Tag t on s.area = a.id, Area a"
        (.unknownAlias "a") ∧
      Sample.schema.mutate .delete ⟨"Tag", fun _ => none⟩ =
        .error (.missingIdentifierConfig "Tag") ∧
      MutationFault Sample.schema ⟨"Tag", fun _ => none⟩ .delete
        (.missingIdentifierConfig "Tag") := by
  have shown : (Sample.schema.compile
      "select s.id from Shop s join Tag t on s.area = a.id, Area a").map (fun _ => ()) =
      .error (.unknownAlias "a") := by
    decide +kernel
  have fails := error_of_shown shown
  have failsToo : Sample.schema.mutate .delete ⟨"Tag", fun _ => none⟩ =
      .error (.missingIdentifierConfig "Tag") := by
    decide +kernel
  obtain ⟨queries, _, mutations, _⟩ := errors_truthful Sample.schema
  exact ⟨fails, queries _ _ fails, failsToo, mutations _ _ _ failsToo⟩

end Schema

end EntityQuery

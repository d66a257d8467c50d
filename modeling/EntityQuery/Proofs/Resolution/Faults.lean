import EntityQuery.Proofs.Resolution.Query
import EntityQuery.Proofs.Schema.Validation

/-!
# Faults of paths

Where a path cannot be resolved, the error says something of the schema and of the names that are
bound: a relation leads to an entity that is not registered, a name is not bound, an entity has no
column of a property, a path goes on behind a column that leads nowhere, or an entity has no
identifier (`PathFault`). All of these are so where paths, expansions, select lists and conditions
fail (`walk_fault`, `field_fault`, `expand_fault`, `selectClause_fault`, `condition_fault`).

Nothing but a path is resolved in these clauses, so they fail for no other reason, unless their text
cannot be read (`ClauseFault`).
-/

set_option autoImplicit false

namespace EntityQuery

open Registry
open Aliases (Reached)

/-- The names that are bound. -/
def Aliases.names (aliases : Aliases) : List String :=
  aliases.bindings.map Binding.written

theorem Aliases.notMem_names_iff {aliases : Aliases} {written : String} :
    written ∉ aliases.names ↔ aliases.resolve? written = none := by
  simp [names, resolve?]

theorem Aliases.Keeps.names_eq {earlier later : Aliases} (keeps : earlier.Keeps later) :
    later.names = earlier.names := by
  rw [names, keeps.bindings, names]

/-- What is wrong with a path over some bound names. -/
inductive PathFault (schema : Schema) (names : List String) : MappingError → Prop
  /-- A relation of a registered entity leads to one that is not registered. -/
  | target {owner : Entity} {property : String} {relation : Relation}
      (registered : owner ∈ schema.entities) (related : owner.relation? property = some relation)
      (unregistered : schema.lookup relation.entity = none) :
      PathFault schema names (.unknownEntity relation.entity)
  | unbound {written : String} (unbound : written ∉ names) :
      PathFault schema names (.unknownAlias written)
  | missing {entity : Entity} {property : String}
      (registered : schema.lookup entity.name = some entity)
      (missing : ¬ entity.HasColumn property) :
      PathFault schema names (.unknownField entity.name property)
  /-- A property is followed by another, but its column is not a foreign key with a relation. -/
  | beyond {entity : Entity} {column : Column} {next : String}
      (registered : schema.lookup entity.name = some entity)
      (first : IsFirst (fun other => other.property = column.property) entity.columns column)
      (ordinary : ¬ (column.reference?.isSome = true ∧
        (entity.relation? column.property).isSome = true)) :
      PathFault schema names (.unknownField entity.name (column.property ++ "." ++ next))
  | unidentified {entity : Entity} (registered : schema.lookup entity.name = some entity)
      (unidentified : entity.identifier? = none) :
      PathFault schema names (.missingIdentifierConfig entity.name)

/-- What is wrong over some bound names is wrong over fewer. -/
theorem PathFault.anti {schema : Schema} {names fewer : List String} {problem : MappingError}
    (fault : PathFault schema names problem) (subset : fewer ⊆ names) :
    PathFault schema fewer problem := by
  cases fault with
  | target registered related unregistered => exact .target registered related unregistered
  | unbound unbound => exact .unbound fun member => unbound (subset member)
  | missing registered missing => exact .missing registered missing
  | beyond registered first ordinary => exact .beyond registered first ordinary
  | unidentified registered unidentified => exact .unidentified registered unidentified

/-- What is wrong with a clause: its text cannot be read, or one of its paths cannot be resolved. -/
inductive ClauseFault (schema : Schema) (names : List String) : MappingError → Prop
  | text (detail : String) : ClauseFault schema names (.malformedQuery detail)
  | path {problem : MappingError} (fault : PathFault schema names problem) :
      ClauseFault schema names problem

theorem exists_detail_of_ofText {α : Type} {outcome : Except Query.TextError α}
    {problem : MappingError} (fails : outcome.mapError .ofText = .error problem) :
    ∃ detail, problem = .malformedQuery detail := by
  cases outcome with
  | ok value => cases fails
  | error reason =>
      cases fails
      exact ⟨reason.message, rfl⟩

/-- A column that leads along no relation is not a foreign key with one. -/
theorem Entity.hop?_eq_none_iff {entity : Entity} {column : Column} :
    entity.hop? column = none ↔
      ¬ (column.reference?.isSome = true ∧ (entity.relation? column.property).isSome = true) := by
  unfold hop? Column.isForeignKey
  cases column.reference? <;> simp

namespace Schema

variable {schema : Schema} {names : List String} {aliases : Aliases} {problem : MappingError}

theorem lookup_of_unknown {name : String} (fails : schema.entity name = .error problem) :
    schema.lookup name = none ∧ problem = .unknownEntity name := by
  refine ⟨?_, entity_error fails⟩
  unfold Registry.entity at fails
  split at fails
  · cases fails
  · assumption

theorem target_fault {entity : Entity} {column : Column} {relation : Relation}
    (registered : schema.lookup entity.name = some entity)
    (leads : entity.hop? column = some relation)
    (unregistered : schema.lookup relation.entity = none) :
    PathFault schema names (.unknownEntity relation.entity) := by
  rw [Entity.hop?, Option.ite_none_right_eq_some] at leads
  exact .target (mem_of_lookup registered) leads.2 unregistered

/-- **Two steps fail in the first, or in the second over the names that the first keeps.** What is
wrong there is wrong over the names before them. -/
theorem fault_of_steps {α β γ : Type} {Fault : List String → MappingError → Prop}
    {first : Except MappingError (α × Aliases)} {next : Aliases → Except MappingError (β × Aliases)}
    {both : α → β → γ}
    (fails : (do
      let (value, middle) ← first
      let (others, later) ← next middle
      return (both value others, later)) = .error problem)
    (inFirst : first = .error problem → Fault aliases.names problem)
    (inNext : ∀ {value middle}, first = .ok (value, middle) → next middle = .error problem →
      aliases.Keeps middle ∧ Fault middle.names problem) : Fault aliases.names problem := by
  rcases error_of_bind fails with here | ⟨⟨value, middle⟩, succeeds, others⟩
  · exact inFirst here
  · rcases error_of_bind others with later | ⟨_, _, same⟩
    · obtain ⟨keeps, fault⟩ := inNext succeeds later
      exact keeps.names_eq ▸ fault
    · cases same

/-! ## Paths -/

/-- **Properties that cannot be followed from a registered entity** have a fault, whatever is bound.
-/
theorem follow_fault {entity : Entity} {alias_ : String} {lastHop? : Option Sql.ColumnRef}
    {segments : List String} (registered : schema.lookup entity.name = some entity)
    (fails : schema.follow entity alias_ lastHop? segments aliases = .error problem) :
    PathFault schema names problem := by
  induction segments generalizing entity alias_ lastHop? aliases with
  | nil => cases fails
  | cons segment rest ih =>
      rw [follow] at fails
      split at fails
      · next unnamed =>
        cases fails
        refine .missing registered fun present => ?_
        rw [← Entity.isSome_column?_iff, unnamed] at present
        cases present
      · next column named =>
        split at fails
        · next relation leads =>
          rcases error_of_bind fails with unknown | ⟨target, known, onwards⟩
          · obtain ⟨unregistered, rfl⟩ := lookup_of_unknown unknown
            exact target_fault registered leads unregistered
          · exact ih (registered_of_entity known).2 onwards
        · next ordinary =>
          split at fails
          · cases fails
          · cases fails
            have property := Entity.property_of_column? named
            subst property
            exact .beyond registered (Entity.column?_eq_some_iff.mp named)
              (Entity.hop?_eq_none_iff.mp ordinary)

/-- **A path that cannot be walked has a fault.** -/
theorem walk_fault {path : Path} (reached : Reached schema aliases)
    (fails : schema.walk path aliases = .error problem) :
    PathFault schema aliases.names problem := by
  unfold walk at fails
  split at fails
  · next unbound =>
    cases fails
    exact .unbound (Aliases.notMem_names_iff.mpr unbound)
  · next binding bound =>
    rcases error_of_bind fails with unknown | ⟨entity, known, onwards⟩
    · -- A bound name stands for a registered entity.
      obtain ⟨source?, member⟩ := reached.sound.bound binding (List.mem_of_find?_eq_some bound)
      obtain ⟨entity, registered⟩ := reached.sound.registered _ member
      cases registered.symm.trans (lookup_of_unknown unknown).1
    · exact follow_fault (registered_of_entity known).2 onwards

theorem columnOf_fault {entityEnd : EntityEnd} {destination : Destination}
    (lands : schema.Lands aliases destination)
    (fails : columnOf entityEnd destination = .error problem) :
    PathFault schema names problem := by
  cases lands with
  | column => cases fails
  | entity _ registered _ =>
      simp only [columnOf] at fails
      split at fails
      · cases fails
      · split at fails
        · cases fails
        · next missing =>
          cases fails
          exact .unidentified registered ((wellFormed_of_lookup registered).unidentified missing)

/-- **A field that cannot be resolved has a fault.** -/
theorem field_fault {entityEnd : EntityEnd} {text : String} (reached : Reached schema aliases)
    (fails : schema.field entityEnd text aliases = .error problem) :
    PathFault schema aliases.names problem := by
  rcases error_of_bind fails with unwalked | ⟨⟨destination, later⟩, walked, others⟩
  · exact walk_fault reached unwalked
  · rcases error_of_bind others with ends | ⟨_, _, same⟩
    · exact columnOf_fault (walk_lands reached walked).2 ends
    · cases same

theorem token_fault {entityEnd : EntityEnd} {token : Query.Token} (reached : Reached schema aliases)
    (fails : schema.token entityEnd token aliases = .error problem) :
    PathFault schema aliases.names problem := by
  unfold Registry.token at fails
  split at fails
  · exact field_fault reached fails
  · cases fails

theorem tokens_fault {entityEnd : EntityEnd} {tokens : List Query.Token}
    (reached : Reached schema aliases)
    (fails : schema.tokens entityEnd tokens aliases = .error problem) :
    PathFault schema aliases.names problem := by
  induction tokens generalizing aliases with
  | nil => cases fails
  | cons token rest ih =>
      exact fault_of_steps fails (token_fault reached) fun first later =>
        ⟨token_keeps first, ih ((token_resolved reached first).reached reached) later⟩

/-! ## Select lists -/

/-- **An expansion fails where an eager relation leads to an entity that is not registered.** -/
theorem expandColumns_fault {visiting : List String} {entity : Entity} {alias_ : String}
    {columns : List Column} (registered : schema.lookup entity.name = some entity)
    (fails : schema.expandColumns visiting entity alias_ columns aliases = .error problem) :
    PathFault schema names problem := by
  fun_induction Schema.expandColumns schema visiting entity alias_ columns aliases with
  | case1 => cases fails
  | case2 visiting entity alias_ aliases column rest ordinary ih =>
      rcases error_of_bind fails with later | ⟨_, _, same⟩
      · exact ih registered later
      · cases same
  | case3 visiting entity alias_ aliases column rest relation leads isLazy ih =>
      exact ih registered fails
  | case4 visiting entity alias_ aliases column rest relation leads eager visited ih =>
      exact ih registered fails
  | case5 visiting entity alias_ aliases column rest relation leads eager fresh unregistered =>
      cases fails
      exact target_fault registered leads unregistered
  | case6 visiting entity alias_ aliases column rest relation leads eager fresh target found _
      targetAlias joined same ihInside ihOthers =>
      rcases error_of_bind fails with inside | ⟨⟨inner, middle⟩, _, others⟩
      · have known := schema.name_of_lookup found
        exact ihInside (known.symm ▸ found) inside
      · rcases error_of_bind others with later | ⟨_, _, same⟩
        · exact ihOthers middle registered later
        · cases same

theorem argument_fault {text : String} (reached : Reached schema aliases)
    (fails : schema.argument text aliases = .error problem) :
    PathFault schema aliases.names problem := by
  unfold argument at fails
  split at fails
  · exact field_fault reached fails
  · cases fails

theorem arguments_fault {texts : List String} (reached : Reached schema aliases)
    (fails : schema.arguments texts aliases = .error problem) :
    PathFault schema aliases.names problem := by
  induction texts generalizing aliases with
  | nil => cases fails
  | cons text rest ih =>
      exact fault_of_steps fails (argument_fault reached) fun first later =>
        ⟨argument_keeps first, ih ((argument_resolved reached first).reached reached) later⟩

theorem selectItem_fault {item : String} (reached : Reached schema aliases)
    (fails : schema.selectItem item aliases = .error problem) :
    ClauseFault schema aliases.names problem := by
  unfold selectItem at fails
  split at fails
  · cases fails
    exact .text _
  · rcases error_of_bind fails with inArguments | ⟨_, _, same⟩
    · exact .path (arguments_fault reached inArguments)
    · cases same
  · rcases error_of_bind fails with unwalked | ⟨⟨destination, later⟩, walked, others⟩
    · exact .path (walk_fault reached unwalked)
    · cases (walk_lands reached walked).2 with
      | column => cases others
      | entity _ registered _ => exact .path (expandColumns_fault registered others)

theorem selectItems_fault {items : List String} (reached : Reached schema aliases)
    (fails : schema.selectItems items aliases = .error problem) :
    ClauseFault schema aliases.names problem := by
  induction items generalizing aliases with
  | nil => cases fails
  | cons item rest ih =>
      exact fault_of_steps fails (selectItem_fault reached) fun first later =>
        ⟨selectItem_keeps first, ih ((selectItem_resolved reached first).reached reached) later⟩

/-- **A select clause fails for a fault of its text or of a path.** -/
theorem selectClause_fault {text : String} (reached : Reached schema aliases)
    (fails : schema.selectClause text aliases = .error problem) :
    ClauseFault schema aliases.names problem := by
  rcases error_of_bind fails with unread | ⟨items, _, others⟩
  · obtain ⟨detail, rfl⟩ := exists_detail_of_ofText unread
    exact .text detail
  · rcases error_of_bind others with inItems | ⟨_, _, last⟩
    · exact selectItems_fault reached inItems
    · dsimp only at last
      split at last
      · cases last
        exact .text _
      · cases last

/-- **A condition or an order fails for a fault of its text or of a path.** -/
theorem condition_fault {marks : Query.MarkSet} {entityEnd : EntityEnd} {text? : Option String}
    (reached : Reached schema aliases)
    (fails : schema.condition marks entityEnd text? aliases = .error problem) :
    ClauseFault schema aliases.names problem := by
  cases text? with
  | none => cases fails
  | some text =>
      rcases error_of_bind fails with unread | ⟨tokens, _, others⟩
      · obtain ⟨detail, rfl⟩ := exists_detail_of_ofText unread
        exact .text detail
      · exact .path (tokens_fault reached others)

end Schema

end EntityQuery

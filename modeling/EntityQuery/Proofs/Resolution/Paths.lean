import EntityQuery.Mapping.Path
import EntityQuery.Proofs.Outcome
import EntityQuery.Proofs.Resolution.References

/-!
# Resolution of paths

A path that is followed from an entity ends there or on an ordinary column, or goes on behind a hop
(`Following`). From a registered entity under one of its aliases it takes hops of the query, and
ends on a column of an entity of the query or on such an entity itself (`Following.lands`,
`walk_lands`). The column that it stands for is then well typed (`field_resolved`), and so are the
columns of the tokens of a clause (`tokens_resolved`).

Over any alias table a field keeps the written names (`field_keeps`), and it fails only for one of
the reasons that concern paths (`field_error`).
-/

set_option autoImplicit false

namespace EntityQuery

open Aliases (Hops Reached Resolved)

/-- What can be wrong with a path. -/
def MappingError.isOfPath : MappingError → Bool
  | .unknownEntity _ | .unknownAlias _ | .unknownField _ _ | .missingIdentifierConfig _ => true
  | _ => false

namespace Registry

variable {registry : Registry}

theorem lookup_of_entity {name : String} {entity : Entity}
    (found : registry.entity name = .ok entity) : registry.lookup name = some entity := by
  unfold Registry.entity at found
  split at found
  · next known =>
      cases found
      exact known
  · cases found

/-- The entity of a name is registered under its own name. -/
theorem registered_of_entity {name : String} {entity : Entity}
    (found : registry.entity name = .ok entity) :
    entity.name = name ∧ registry.lookup entity.name = some entity := by
  have known := lookup_of_entity found
  have same := registry.name_of_lookup known
  exact ⟨same, same ▸ known⟩

/-! ## What succeeds -/

/-- A path that is followed from an entity under an alias, from one alias table to a later one, with
the foreign key of the last hop if there was a hop. -/
inductive Following (registry : Registry) :
    Entity → String → Option Sql.ColumnRef → List String → Aliases → Destination →
      Aliases → Prop where
  | ends (entity : Entity) (alias_ : String) (lastHop? : Option Sql.ColumnRef) (aliases : Aliases) :
      Following registry entity alias_ lastHop? [] aliases (.entity entity alias_ lastHop?) aliases
  | column {entity : Entity} {segment : String} {column : Column} (alias_ : String)
      (lastHop? : Option Sql.ColumnRef) (aliases : Aliases)
      (named : entity.column? segment = some column)
      (ordinary : entity.hop? column = none) :
      Following registry entity alias_ lastHop? [segment] aliases
        (.column (.of alias_ column.columnName)) aliases
  | hop {entity target : Entity} {alias_ segment : String} {column : Column} {relation : Relation}
      {rest : List String} {aliases later : Aliases} {destination : Destination}
      (lastHop? : Option Sql.ColumnRef) (named : entity.column? segment = some column)
      (leads : entity.hop? column = some relation)
      (known : registry.entity relation.entity = .ok target)
      (onwards : Following registry target (aliases.join entity alias_ column target).1
        (some (.of alias_ column.columnName)) rest (aliases.join entity alias_ column target).2
        destination later) :
      Following registry entity alias_ lastHop? (segment :: rest) aliases destination later

/-- **What `follow` returns is a path that is followed.** -/
theorem following_of_ok {entity : Entity} {alias_ : String} {lastHop? : Option Sql.ColumnRef}
    {segments : List String} {aliases later : Aliases} {destination : Destination}
    (followed : registry.follow entity alias_ lastHop? segments aliases =
      .ok (destination, later)) :
    registry.Following entity alias_ lastHop? segments aliases destination later := by
  induction segments generalizing entity alias_ lastHop? aliases with
  | nil =>
      cases followed
      exact .ends entity alias_ lastHop? _
  | cons segment rest ih =>
      rw [follow] at followed
      split at followed
      · cases followed
      · next column named =>
        split at followed
        · next relation leads =>
          obtain ⟨target, known, onwards⟩ := ok_of_bind followed
          exact .hop lastHop? named leads known (ih onwards)
        · next ordinary =>
          split at followed
          · cases followed
            exact .column alias_ lastHop? _ named ordinary
          · cases followed

variable {entityEnd : EntityEnd} {aliases later : Aliases} {expr : Sql.Expr}

theorem walk_eq_ok_iff {path : Path} {destination : Destination} :
    registry.walk path aliases = .ok (destination, later) ↔
      ∃ binding entity, aliases.resolve? path.head = some binding ∧
        registry.entity binding.entity = .ok entity ∧
        registry.follow entity binding.alias_ none path.segments aliases =
          .ok (destination, later) := by
  constructor
  · intro walked
    unfold walk at walked
    split at walked
    · cases walked
    · next binding found =>
      obtain ⟨entity, known, followed⟩ := ok_of_bind walked
      exact ⟨binding, entity, found, known, followed⟩
  · rintro ⟨binding, entity, found, known, followed⟩
    rw [walk, found]
    exact bind_ok known followed

theorem field_eq_ok_iff {text : String} :
    registry.field entityEnd text aliases = .ok (expr, later) ↔
      ∃ destination reference, registry.walk (Path.ofText text) aliases = .ok (destination, later) ∧
        columnOf entityEnd destination = .ok reference ∧ expr = .column reference := by
  constructor
  · intro succeeds
    obtain ⟨⟨destination, after⟩, walked, rest⟩ := ok_of_bind succeeds
    obtain ⟨reference, stands, same⟩ := ok_of_bind rest
    cases same
    exact ⟨destination, reference, walked, stands, rfl⟩
  · rintro ⟨destination, reference, walked, stands, rfl⟩
    exact bind_ok walked (bind_ok stands rfl)

/-- A field is a column. -/
theorem exists_column_of_field {text : String}
    (succeeds : registry.field entityEnd text aliases = .ok (expr, later)) :
    ∃ reference, expr = .column reference := by
  obtain ⟨_, reference, _, _, rfl⟩ := field_eq_ok_iff.mp succeeds
  exact ⟨reference, rfl⟩

/-- The tokens of a clause are resolved one after another. -/
theorem tokens_cons_eq_ok_iff {token : Query.Token} {rest : List Query.Token}
    {exprs : List Sql.Expr} :
    registry.tokens entityEnd (token :: rest) aliases = .ok (exprs, later) ↔
      ∃ first middle others, registry.token entityEnd token aliases = .ok (first, middle) ∧
        registry.tokens entityEnd rest middle = .ok (others, later) ∧ exprs = first :: others := by
  constructor
  · intro succeeds
    obtain ⟨⟨first, middle⟩, firstOk, remaining⟩ := ok_of_bind succeeds
    obtain ⟨⟨others, last⟩, othersOk, same⟩ := ok_of_bind remaining
    cases same
    exact ⟨first, middle, others, firstOk, othersOk, rfl⟩
  · rintro ⟨first, middle, others, firstOk, othersOk, rfl⟩
    exact bind_ok firstOk (bind_ok othersOk rfl)

/-! ## Tables of a query -/

/-- Where a path ends over an alias table: on a well-typed column, or on a registered entity under
one of its aliases, after a hop along a well-typed column if there was a hop. -/
inductive Lands (registry : Registry) (aliases : Aliases) : Destination → Prop where
  | column {reference : Sql.ColumnRef} (typed : registry.HasColumn aliases.entries reference) :
      Lands registry aliases (.column reference)
  | entity {entity : Entity} {alias_ : String} {lastHop? : Option Sql.ColumnRef}
      (stands : aliases.StandsFor alias_ entity.name)
      (registered : registry.lookup entity.name = some entity)
      (typed : ∀ reference ∈ lastHop?, registry.HasColumn aliases.entries reference) :
      Lands registry aliases (.entity entity alias_ lastHop?)

/-- **A path that is followed from an entity of a query ends in the query.** -/
theorem Following.lands {entity : Entity} {alias_ : String} {lastHop? : Option Sql.ColumnRef}
    {segments : List String} {aliases later : Aliases} {destination : Destination}
    (following : registry.Following entity alias_ lastHop? segments aliases destination later)
    (stands : aliases.StandsFor alias_ entity.name)
    (registered : registry.lookup entity.name = some entity)
    (typed : ∀ reference ∈ lastHop?, registry.HasColumn aliases.entries reference) :
    Hops registry aliases later ∧ registry.Lands later destination := by
  induction following with
  | ends => exact ⟨.refl, .entity stands registered typed⟩
  | column alias_ lastHop? aliases named =>
      have own := Aliases.hasColumn_of_standsFor stands registered (Entity.mem_of_column? named)
      exact ⟨.refl, .column own⟩
  | @hop entity target alias_ segment column relation _ aliases _ _ lastHop? named leads
      known _ ih =>
      have member := Entity.mem_of_column? named
      have own := Aliases.hasColumn_of_standsFor stands registered member
      have hop : Aliases.IsHop registry aliases entity alias_ column target :=
        ⟨stands, registered, Entity.property_of_column? named ▸ named, member, relation, leads,
          lookup_of_entity known⟩
      have more := aliases.extends_join entity alias_ column target
      obtain ⟨hops, lands⟩ := ih
        (Aliases.standsFor_of_first? (aliases.first?_join entity alias_ column target))
        (registered_of_entity known).2
        (fun reference last => by
          cases last
          exact Aliases.hasColumn_mono more own)
      exact ⟨.head (.along hop) hops, lands⟩

/-- **A path from a written name ends in the query.** -/
theorem walk_lands {path : Path} {aliases later : Aliases} {destination : Destination}
    (reached : Reached registry aliases)
    (walked : registry.walk path aliases = .ok (destination, later)) :
    Hops registry aliases later ∧ registry.Lands later destination := by
  obtain ⟨binding, entity, found, known, followed⟩ := walk_eq_ok_iff.mp walked
  obtain ⟨same, registered⟩ := registered_of_entity known
  have stands := reached.sound.bound binding (List.mem_of_find?_eq_some found)
  exact (following_of_ok followed).lands (same ▸ stands) registered (by simp)

/-- The identifier of an entity of the query is well typed. -/
theorem columnOf_identifier_typed {aliases : Aliases} {entity : Entity} {alias_ : String}
    {reference : Sql.ColumnRef} (place : aliases.StandsFor alias_ entity.name)
    (registered : registry.lookup entity.name = some entity)
    (stands : columnOf .identifier (.entity entity alias_ none) = .ok reference) :
    registry.HasColumn aliases.entries reference := by
  simp only [columnOf] at stands
  split at stands
  · next column named =>
    cases stands
    obtain ⟨property, _, found⟩ := Option.bind_eq_some_iff.mp named
    exact Aliases.hasColumn_of_standsFor place registered (Entity.mem_of_column? found)
  · cases stands

/-- The column that the end of a path stands for is well typed. -/
theorem columnOf_typed {entityEnd : EntityEnd} {aliases : Aliases} {destination : Destination}
    {reference : Sql.ColumnRef} (lands : registry.Lands aliases destination)
    (stands : columnOf entityEnd destination = .ok reference) :
    registry.HasColumn aliases.entries reference := by
  cases lands with
  | column typed =>
      cases stands
      exact typed
  | @entity entity alias_ lastHop? place registered typed =>
      cases entityEnd with
      | identifier => exact columnOf_identifier_typed place registered stands
      | referencingKey =>
          cases lastHop? with
          | none => exact columnOf_identifier_typed place registered stands
          | some lastHop =>
              cases stands
              exact typed _ rfl

/-- **The column of a path is well typed.** -/
theorem field_resolved {entityEnd : EntityEnd} {text : String} {aliases later : Aliases}
    {expr : Sql.Expr} (reached : Reached registry aliases)
    (succeeds : registry.field entityEnd text aliases = .ok (expr, later)) :
    Resolved registry aliases expr.references later := by
  obtain ⟨destination, reference, walked, stands, rfl⟩ := field_eq_ok_iff.mp succeeds
  obtain ⟨hops, lands⟩ := walk_lands reached walked
  refine ⟨hops, fun other member => ?_⟩
  rw [Sql.Expr.references, List.mem_singleton] at member
  exact member ▸ columnOf_typed lands stands

theorem token_resolved {entityEnd : EntityEnd} {token : Query.Token} {aliases later : Aliases}
    {expr : Sql.Expr} (reached : Reached registry aliases)
    (succeeds : registry.token entityEnd token aliases = .ok (expr, later)) :
    Resolved registry aliases expr.references later := by
  unfold Registry.token at succeeds
  split at succeeds
  · exact field_resolved reached succeeds
  · cases succeeds
    exact .nil aliases

/-- **The tokens of a clause refer to well-typed columns.** -/
theorem tokens_resolved {entityEnd : EntityEnd} {tokens : List Query.Token}
    {aliases later : Aliases} {exprs : List Sql.Expr} (reached : Reached registry aliases)
    (succeeds : registry.tokens entityEnd tokens aliases = .ok (exprs, later)) :
    Resolved registry aliases (Sql.Expr.referencesOf exprs) later := by
  induction tokens generalizing aliases exprs with
  | nil =>
      cases succeeds
      exact .nil _
  | cons token rest ih =>
      obtain ⟨expr, middle, more, first, remaining, rfl⟩ := tokens_cons_eq_ok_iff.mp succeeds
      have one := token_resolved reached first
      exact one.append (ih (one.reached reached) remaining)

/-! ## Any table -/

/-- **A path that is followed over any table keeps the written names.** -/
theorem Following.keeps {entity : Entity} {alias_ : String} {lastHop? : Option Sql.ColumnRef}
    {segments : List String} {aliases later : Aliases} {destination : Destination}
    (following : registry.Following entity alias_ lastHop? segments aliases destination later) :
    aliases.Keeps later := by
  induction following with
  | ends | column => exact .refl _
  | hop _ _ _ _ _ ih => exact (Aliases.keeps_join ..).trans ih

theorem walk_keeps {path : Path} {aliases later : Aliases} {destination : Destination}
    (walked : registry.walk path aliases = .ok (destination, later)) : aliases.Keeps later := by
  obtain ⟨_, _, _, _, followed⟩ := walk_eq_ok_iff.mp walked
  exact (following_of_ok followed).keeps

theorem field_keeps {entityEnd : EntityEnd} {text : String} {aliases later : Aliases}
    {expr : Sql.Expr} (succeeds : registry.field entityEnd text aliases = .ok (expr, later)) :
    aliases.Keeps later := by
  obtain ⟨_, _, walked, _⟩ := field_eq_ok_iff.mp succeeds
  exact walk_keeps walked

theorem token_keeps {entityEnd : EntityEnd} {token : Query.Token} {aliases later : Aliases}
    {expr : Sql.Expr} (succeeds : registry.token entityEnd token aliases = .ok (expr, later)) :
    aliases.Keeps later := by
  unfold Registry.token at succeeds
  split at succeeds
  · exact field_keeps succeeds
  · cases succeeds
    exact .refl _

theorem tokens_keep {entityEnd : EntityEnd} {tokens : List Query.Token} {aliases later : Aliases}
    {exprs : List Sql.Expr}
    (succeeds : registry.tokens entityEnd tokens aliases = .ok (exprs, later)) :
    aliases.Keeps later := by
  induction tokens generalizing aliases exprs with
  | nil =>
      cases succeeds
      exact .refl _
  | cons token rest ih =>
      obtain ⟨expr, middle, more, first, remaining, rfl⟩ := tokens_cons_eq_ok_iff.mp succeeds
      exact (token_keeps first).trans (ih remaining)

/-! ## Errors -/

theorem entity_error {name : String} {problem : MappingError}
    (fails : registry.entity name = .error problem) : problem = .unknownEntity name := by
  unfold Registry.entity at fails
  split at fails
  · cases fails
  · cases fails
    rfl

theorem follow_error {entity : Entity} {alias_ : String} {lastHop? : Option Sql.ColumnRef}
    {segments : List String} {aliases : Aliases} {problem : MappingError}
    (fails : registry.follow entity alias_ lastHop? segments aliases = .error problem) :
    problem.isOfPath = true := by
  induction segments generalizing entity alias_ lastHop? aliases with
  | nil => cases fails
  | cons segment rest ih =>
      rw [follow] at fails
      split at fails
      · cases fails
        rfl
      · split at fails
        · rcases error_of_bind fails with unknown | ⟨target, _, onwards⟩
          · rw [entity_error unknown]
            rfl
          · exact ih onwards
        · split at fails
          · cases fails
          · cases fails
            rfl

theorem walk_error {path : Path} {aliases : Aliases} {problem : MappingError}
    (fails : registry.walk path aliases = .error problem) : problem.isOfPath = true := by
  unfold walk at fails
  split at fails
  · cases fails
    rfl
  · rcases error_of_bind fails with unknown | ⟨entity, _, onwards⟩
    · rw [entity_error unknown]
      rfl
    · exact follow_error onwards

theorem columnOf_error {entityEnd : EntityEnd} {destination : Destination} {problem : MappingError}
    (fails : columnOf entityEnd destination = .error problem) : problem.isOfPath = true := by
  unfold columnOf at fails
  split at fails
  · cases fails
  · split at fails
    · cases fails
    · split at fails
      · cases fails
      · cases fails
        rfl

/-- **A field fails because something is wrong with its path.** -/
theorem field_error {entityEnd : EntityEnd} {text : String} {aliases : Aliases}
    {problem : MappingError} (fails : registry.field entityEnd text aliases = .error problem) :
    problem.isOfPath = true := by
  rcases error_of_bind fails with wrong | ⟨_, _, others⟩
  · exact walk_error wrong
  · rcases error_of_bind others with wrong | ⟨_, _, same⟩
    · exact columnOf_error wrong
    · cases same

theorem token_error {entityEnd : EntityEnd} {token : Query.Token} {aliases : Aliases}
    {problem : MappingError} (fails : registry.token entityEnd token aliases = .error problem) :
    problem.isOfPath = true := by
  unfold Registry.token at fails
  split at fails
  · exact field_error fails
  · cases fails

end Registry

end EntityQuery

import EntityQuery.Proofs.Resolution.Paths
import EntityQuery.Proofs.Sample

/-!
# Paths in the graph of a schema

The entities of a schema form a graph: a foreign key with a relation leads from its entity to the
target of the relation. Properties can be followed in this graph without an alias table
(`graphWalk`), which gives an error, or the hops taken, the entity that they lead to, and a column
of it if the way ends on one.

Over an alias table that a query can reach, a path whose head is bound ends where the way from the
head's entity ends, with the same error, column or entity, whatever has been joined before
(`follow_arrives`, `follow_fails`). What the table adds is aliases: that of the head before the
first hop, and after a hop the first one of its target (`StandsAfter`). The main statement is
`path_followsGraph`.
-/

set_option autoImplicit false

namespace EntityQuery

open Registry
open Aliases (Reached)

/-- A hop of the graph: from an owner along a column to a target. -/
structure GraphHop where
  owner : Entity
  column : Column
  target : Entity

/-- A way through the graph: the hops, the entity that they lead to, and the column of that entity
on which the way ends, if it does not end on the entity. -/
structure Way where
  hops : List GraphHop
  entity : Entity
  column? : Option Column

/-- The way with one hop more at its start. -/
def Way.after (hop : GraphHop) (way : Way) : Way :=
  { way with hops := hop :: way.hops }

/-- Where properties lead from an entity: along a foreign key with a relation to the target of the
relation, and along any other column no further. -/
def Schema.graphWalk (schema : Schema) (entity : Entity) : List String → Except MappingError Way
  | [] => .ok ⟨[], entity, none⟩
  | segment :: rest =>
    match entity.column? segment with
    | none => .error (.unknownField entity.name segment)
    | some column =>
      match column.isForeignKey, entity.relation? segment with
      | true, some relation =>
        match schema.lookup relation.entity with
        | none => .error (.unknownEntity relation.entity)
        | some target => (schema.graphWalk target rest).map (Way.after ⟨entity, column, target⟩)
      | _, _ =>
        match rest with
        | [] => .ok ⟨[], entity, some column⟩
        | next :: _ => .error (.unknownField entity.name (segment ++ "." ++ next))

/-! ## The aliases of a way -/

/-- The alias that the end of some hops has: that of the start, or the first one of the last target.
-/
inductive StandsAfter (aliases : Aliases) (start : String) : List GraphHop → String → Prop where
  | start : StandsAfter aliases start [] start
  | hop (before : List GraphHop) {hop : GraphHop} {alias_ : String}
      (first : aliases.first? hop.target.name = some alias_) :
      StandsAfter aliases start (before ++ [hop]) alias_

/-- The foreign key of the last hop under the alias of its owner, if there is a hop. -/
inductive KeyAfter (aliases : Aliases) (start : String) :
    List GraphHop → Option Sql.ColumnRef → Prop where
  | start : KeyAfter aliases start [] none
  | hop {before : List GraphHop} (hop : GraphHop) {ownerAlias : String}
      (stands : StandsAfter aliases start before ownerAlias) :
      KeyAfter aliases start (before ++ [hop]) (some (.of ownerAlias hop.column.columnName))

/-- The destination at the end of a way under an alias, after a hop along a key if there was a hop.
-/
def Way.destination (way : Way) (alias_ : String) (key? : Option Sql.ColumnRef) : Destination :=
  match way.column? with
  | some column => .column (.of alias_ column.columnName)
  | none => .entity way.entity alias_ key?

/-- The column that the end of a way stands for: the one that it ends on, or else the key of the
last hop where that is wanted, or else the identifier of the entity. -/
def Way.reference (way : Way) (entityEnd : EntityEnd) (alias_ : String)
    (key? : Option Sql.ColumnRef) : Except MappingError Sql.ColumnRef :=
  match way.column?, entityEnd, key? with
  | some column, _, _ => .ok (.of alias_ column.columnName)
  | none, .referencingKey, some key => .ok key
  | none, _, _ =>
    match way.entity.identifierColumn? with
    | some column => .ok (.of alias_ column.columnName)
    | none => .error (.missingIdentifierConfig way.entity.name)

variable {aliases : Aliases} {start : String}

/-- What stands after some hops stands after one more at the start, which leads to where they start.
-/
theorem StandsAfter.cons {hops : List GraphHop} {hop : GraphHop} {next alias_ : String}
    (stands : StandsAfter aliases next hops alias_)
    (first : aliases.first? hop.target.name = some next) :
    StandsAfter aliases start (hop :: hops) alias_ := by
  cases stands with
  | start => exact .hop [] first
  | hop before last => exact .hop (hop :: before) last

/-- With one more hop at the start, the key of the last hop is the old one, or else that of the new
hop. -/
theorem KeyAfter.cons {hops : List GraphHop} {hop : GraphHop} {next : String}
    {key? : Option Sql.ColumnRef} (key : KeyAfter aliases next hops key?)
    (first : aliases.first? hop.target.name = some next) :
    KeyAfter aliases start (hop :: hops) (key?.or (some (.of start hop.column.columnName))) := by
  cases key with
  | start => exact .hop hop .start
  | hop last stands => exact .hop last (stands.cons first)

namespace Schema

variable {schema : Schema}

/-! ## Steps of a way -/

/-- The relation of the column of a property is that of the property, if the column is a foreign
key. -/
theorem hop?_of_named {entity : Entity} {segment : String} {column : Column}
    (named : entity.column? segment = some column) :
    entity.hop? column = if column.isForeignKey then entity.relation? segment else none := by
  rw [Entity.hop?, Entity.property_of_column? named]

theorem graphWalk_missing {entity : Entity} {segment : String} {rest : List String}
    (missing : entity.column? segment = none) :
    schema.graphWalk entity (segment :: rest) = .error (.unknownField entity.name segment) := by
  rw [graphWalk, missing]

theorem graphWalk_hop {entity : Entity} {segment : String} {rest : List String} {column : Column}
    {relation : Relation} (named : entity.column? segment = some column)
    (leads : entity.hop? column = some relation) :
    schema.graphWalk entity (segment :: rest) =
      schema.entity relation.entity >>= fun target =>
        (schema.graphWalk target rest).map (Way.after ⟨entity, column, target⟩) := by
  rw [hop?_of_named named, Option.ite_none_right_eq_some] at leads
  simp only [graphWalk, named, leads.1, leads.2, Registry.entity]
  cases schema.lookup relation.entity <;> rfl

theorem graphWalk_ordinary {entity : Entity} {segment : String} {rest : List String}
    {column : Column} (named : entity.column? segment = some column)
    (ordinary : entity.hop? column = none) :
    schema.graphWalk entity (segment :: rest) =
      match rest with
      | [] => .ok ⟨[], entity, some column⟩
      | next :: _ => .error (.unknownField entity.name (segment ++ "." ++ next)) := by
  rw [hop?_of_named named] at ordinary
  simp only [graphWalk, named]
  split
  · next key relation =>
    rw [key, if_pos rfl, relation] at ordinary
    cases ordinary
  · rfl

/-- A property has no column, or one that leads no further, or one that leads along a relation. -/
theorem segment_cases (entity : Entity) (segment : String) :
    entity.column? segment = none ∨
    (∃ column, entity.column? segment = some column ∧ entity.hop? column = none) ∨
    ∃ column relation, entity.column? segment = some column ∧
      entity.hop? column = some relation := by
  cases entity.column? segment with
  | none => exact .inl rfl
  | some column =>
      cases leads : entity.hop? column with
      | none => exact .inr (.inl ⟨column, rfl, leads⟩)
      | some relation => exact .inr (.inr ⟨column, relation, rfl, leads⟩)

/-- The graph knows no written names. -/
theorem graphWalk_ne_unknownAlias (entity : Entity) (segments : List String) (written : String) :
    schema.graphWalk entity segments ≠ .error (.unknownAlias written) := by
  induction segments generalizing entity with
  | nil => exact nofun
  | cons segment rest ih =>
      rcases segment_cases entity segment with
        missing | ⟨column, named, ordinary⟩ | ⟨column, relation, named, leads⟩
      · rw [graphWalk_missing missing]
        exact nofun
      · rw [graphWalk_ordinary named ordinary]
        cases rest <;> exact nofun
      · rw [graphWalk_hop named leads]
        intro fails
        rcases error_of_bind fails with unknown | ⟨target, _, onwards⟩
        · cases entity_error unknown
        · exact ih target (error_of_shown onwards)

/-! ## Following properties -/

/-- **Where the graph has no way, properties cannot be followed, for the same reason.** -/
theorem follow_fails {entity : Entity} {segments : List String} {problem : MappingError}
    (fails : schema.graphWalk entity segments = .error problem) (start : String)
    (lastHop? : Option Sql.ColumnRef) (aliases : Aliases) :
    schema.follow entity start lastHop? segments aliases = .error problem := by
  induction segments generalizing entity start lastHop? aliases with
  | nil => cases fails
  | cons segment rest ih =>
      rcases segment_cases entity segment with
        missing | ⟨column, named, ordinary⟩ | ⟨column, relation, named, leads⟩
      · rw [graphWalk_missing missing] at fails
        cases fails
        simp only [follow, missing]
      · rw [graphWalk_ordinary named ordinary] at fails
        simp only [follow, named, ordinary]
        cases rest with
        | nil => cases fails
        | cons next _ =>
            cases fails
            rfl
      · rw [graphWalk_hop named leads] at fails
        simp only [follow, named, leads]
        rcases error_of_bind fails with unknown | ⟨target, known, onwards⟩
        · exact bind_of_error unknown
        · rw [bind_of_ok known]
          exact ih (error_of_shown onwards) _ _ _

/-- **Along a way of the graph properties lead to its end**, over any alias table: under the alias
that the table has for it then. -/
theorem follow_arrives {entity : Entity} {segments : List String} {way : Way}
    (arrives : schema.graphWalk entity segments = .ok way) (start : String)
    (lastHop? : Option Sql.ColumnRef) (aliases : Aliases) :
    ∃ alias_ key? later, StandsAfter later start way.hops alias_ ∧
      KeyAfter later start way.hops key? ∧
      schema.follow entity start lastHop? segments aliases =
        .ok (way.destination alias_ (key?.or lastHop?), later) := by
  induction segments generalizing entity start lastHop? aliases way with
  | nil =>
      cases arrives
      exact ⟨start, none, aliases, .start, .start, rfl⟩
  | cons segment rest ih =>
      rcases segment_cases entity segment with
        missing | ⟨column, named, ordinary⟩ | ⟨column, relation, named, leads⟩
      · rw [graphWalk_missing missing] at arrives
        cases arrives
      · rw [graphWalk_ordinary named ordinary] at arrives
        simp only [follow, named, ordinary]
        cases rest with
        | nil =>
            cases arrives
            exact ⟨start, none, aliases, .start, .start, rfl⟩
        | cons next _ => cases arrives
      · rw [graphWalk_hop named leads] at arrives
        obtain ⟨target, known, onwards⟩ := ok_of_bind arrives
        obtain ⟨further, onward, rfl⟩ := ok_of_map onwards
        simp only [follow, named, leads]
        rw [bind_of_ok known]
        obtain ⟨alias_, key?, later, stands, key, followed⟩ := ih onward
          (aliases.join entity start column target).1
          (some (.of start column.columnName)) (aliases.join entity start column target).2
        -- The target keeps the alias that the hop gives it to the end of the way.
        have first := Aliases.first?_mono (following_of_ok followed).keeps.more
          (aliases.first?_join entity start column target)
        refine ⟨alias_, _, later, stands.cons first, key.cons first, ?_⟩
        rw [followed]
        cases key? <;> rfl

/-! ## Paths -/

/-- The column of a way's end is the one that its destination stands for. -/
theorem columnOf_destination (way : Way) (entityEnd : EntityEnd) (alias_ : String)
    (key? : Option Sql.ColumnRef) :
    columnOf entityEnd (way.destination alias_ key?) = way.reference entityEnd alias_ key? := by
  unfold Way.destination Way.reference
  cases way.column? with
  | some column => rfl
  | none => cases entityEnd <;> cases key? <;> rfl

/-- A path whose head has an alias is resolved along what the graph says: with its error, or to the
end of its way, over a table that has gained joins only. -/
def ResolvesAlong (schema : Schema) (text : String) (aliases : Aliases) (start : String) :
    Except MappingError Way → Prop
  | .error problem =>
    schema.walk (Path.ofText text) aliases = .error problem ∧
      ∀ entityEnd, schema.field entityEnd text aliases = .error problem
  | .ok way =>
    ∃ alias_ key? later, aliases.Keeps later ∧
      StandsAfter later start way.hops alias_ ∧ KeyAfter later start way.hops key? ∧
      schema.walk (Path.ofText text) aliases = .ok (way.destination alias_ key?, later) ∧
      ∀ entityEnd, schema.field entityEnd text aliases =
        (way.reference entityEnd alias_ key?).map fun reference => (.column reference, later)

/-- The text of a path is resolved over an alias table as the graph says from the entity of its
head, and it is an unknown alias exactly if the head is not bound. -/
structure FollowsGraph (schema : Schema) (text : String) (aliases : Aliases) : Prop where
  unbound : schema.walk (Path.ofText text) aliases =
    .error (.unknownAlias (Path.ofText text).head) ↔
    aliases.resolve? (Path.ofText text).head = none
  unboundField : aliases.resolve? (Path.ofText text).head = none → ∀ entityEnd,
    schema.field entityEnd text aliases = .error (.unknownAlias (Path.ofText text).head)
  bound : ∀ binding, aliases.resolve? (Path.ofText text).head = some binding →
    ∃ entity, schema.lookup binding.entity = some entity ∧
      schema.ResolvesAlong text aliases binding.alias_
        (schema.graphWalk entity (Path.ofText text).segments)

theorem walk_unbound {path : Path} {aliases : Aliases}
    (unbound : aliases.resolve? path.head = none) :
    schema.walk path aliases = .error (.unknownAlias path.head) := by
  rw [walk, unbound]

/-- From a bound head whose entity is registered a path is walked by following its properties. -/
theorem walk_bound {path : Path} {aliases : Aliases} {binding : Binding} {entity : Entity}
    (bound : aliases.resolve? path.head = some binding)
    (registered : schema.lookup binding.entity = some entity) :
    schema.walk path aliases = schema.follow entity binding.alias_ none path.segments aliases := by
  simp only [walk, bound, Registry.entity, registered]
  rfl

theorem resolvesAlong_graphWalk {text : String} {aliases : Aliases} {binding : Binding}
    {entity : Entity} (bound : aliases.resolve? (Path.ofText text).head = some binding)
    (registered : schema.lookup binding.entity = some entity) :
    schema.ResolvesAlong text aliases binding.alias_
      (schema.graphWalk entity (Path.ofText text).segments) := by
  have walked := walk_bound bound registered
  cases outcome : schema.graphWalk entity (Path.ofText text).segments with
  | error problem =>
      rw [follow_fails outcome] at walked
      exact ⟨walked, fun entityEnd => bind_of_error walked⟩
  | ok way =>
      obtain ⟨alias_, key?, later, stands, key, followed⟩ :=
        follow_arrives outcome binding.alias_ none aliases
      rw [followed, Option.or_none] at walked
      refine ⟨alias_, key?, later, walk_keeps walked, stands, key, walked, fun entityEnd => ?_⟩
      rw [field, bind_of_ok walked]
      dsimp only
      rw [columnOf_destination]
      cases way.reference entityEnd alias_ key? <;> rfl

/-- **A path is resolved as a walk of the schema's graph**, whatever has been joined before. -/
theorem path_followsGraph (schema : Schema) (aliases : Aliases) (reached : Reached schema aliases)
    (text : String) : schema.FollowsGraph text aliases := by
  have along : ∀ binding, aliases.resolve? (Path.ofText text).head = some binding →
      ∃ entity, schema.lookup binding.entity = some entity ∧
        schema.ResolvesAlong text aliases binding.alias_
          (schema.graphWalk entity (Path.ofText text).segments) := by
    intro binding bound
    obtain ⟨source?, member⟩ := reached.sound.bound binding (List.mem_of_find?_eq_some bound)
    obtain ⟨entity, registered⟩ := reached.sound.registered _ member
    exact ⟨entity, registered, resolvesAlong_graphWalk bound registered⟩
  refine ⟨⟨fun fails => ?_, walk_unbound⟩,
    fun unbound _ => bind_of_error (walk_unbound unbound), along⟩
  cases bound : aliases.resolve? (Path.ofText text).head with
  | none => rfl
  | some binding =>
      obtain ⟨entity, _, resolves⟩ := along binding bound
      cases outcome : schema.graphWalk entity (Path.ofText text).segments with
      | error problem =>
          rw [outcome] at resolves
          cases fails.symm.trans resolves.1
          exact absurd outcome (graphWalk_ne_unknownAlias _ _ _)
      | ok way =>
          rw [outcome] at resolves
          obtain ⟨_, _, _, _, _, _, walked, _⟩ := resolves
          cases fails.symm.trans walked

/-- From a shop to its area, to the first shop of that, and to its area again, after the area has
been joined: the area keeps the alias of the first hop, and the shop the one that it has as an
entry. -/
theorem path_followsGraph_shops :
    ∃ aliases, Reached Sample.schema aliases ∧ aliases.joins.length = 1 ∧
      ((Sample.schema.graphWalk Sample.shop ["area", "shop", "area"]).map fun way =>
        (way.hops.length, way.entity.name, way.column?)) = .ok (3, "Area", none) ∧
      Sample.schema.FollowsGraph "s.area.shop.area" aliases ∧
      ((Sample.schema.field .identifier "s.area.shop.area" aliases).map fun found =>
        (found.1.render, found.2.joins.length)) = .ok ("t1.id", 1) ∧
      ((Sample.schema.field .referencingKey "s.area.shop.area" aliases).map fun found =>
        found.1.render) = .ok "t0.area_id" := by
  have entry : Reached Sample.schema (Aliases.empty.bind Sample.shop.name (some "s")).2 :=
    .entry .empty rfl (some "s")
  have hop : Aliases.IsHop Sample.schema (Aliases.empty.bind Sample.shop.name (some "s")).2
      Sample.shop "t0" ⟨"area", some "area_id", .number, true, some "id"⟩ Sample.area :=
    ⟨Aliases.standsFor_bind _ _ _, rfl, rfl, by decide, ⟨"Area", true, .manyToOne⟩, rfl, rfl⟩
  have reached := Reached.hop entry (.along hop)
  exact ⟨_, reached, by decide, by decide +kernel, path_followsGraph Sample.schema _ reached _,
    by decide +kernel, by decide +kernel⟩

end Schema

end EntityQuery

import EntityQuery.Proofs.Tables.Introduction

/-!
# Scope of join conditions

The tables of a select, its joins and the rest of its table clause stand one after another in the
text after `from` (`Sql.Select.renderTables_eq`). Such parts are in scope if every alias that a part
mentions is introduced by it or by a part before it (`Sql.InScope`).

Every join has an owner that is a written table or an earlier joined one (`inScope_joins`), and
every condition of a table clause mentions joined tables and written ones before it
(`TableRun.inScope`). But all joins stand behind the first table, whatever their owners are. So the
parts are in scope exactly if every hop from a written table starts from the first one
(`compile_inScope_iff`), and a hop from any other table of the clause gives a join whose condition
mentions an alias too early (`compile_outOfScope`).
-/

set_option autoImplicit false

namespace EntityQuery

namespace Sql

/-! ## Parts and their scope -/

/-- A part of the text after `from`. -/
inductive FromPart where
  | table (reference : TableRef)
  | join (join : LeftJoin)
  | token (expr : Expr)

namespace FromPart

/-- The text of a part. -/
def render : FromPart → String
  | .table reference => reference.render
  | .join added => added.render
  | .token expr => expr.render

/-- The aliases that a part introduces. -/
def introduced : FromPart → List String
  | .table reference => [reference.alias_]
  | .join added => [added.target.alias_]
  | .token _ => []

/-- The aliases that a part mentions in a condition. -/
def mentioned : FromPart → List String
  | .table _ => []
  | .join added => added.condition.references.filterMap ColumnRef.qualifier?
  | .token expr => expr.references.filterMap ColumnRef.qualifier?

end FromPart

/-- A part of a table clause as a part of the text after `from`. -/
def TableItem.part : TableItem → FromPart
  | .table reference => .table reference
  | .token expr => .token expr

/-- The parts of a select in the order of its text: the first table, the joins, and the rest of the
table clause. -/
def Select.parts (select : Select) : List FromPart :=
  .table select.first :: (select.joins.map .join ++ select.tail.map TableItem.part)

theorem Select.renderTables_eq (select : Select) :
    select.renderTables = String.intercalate " " (select.parts.map FromPart.render) := by
  have tail : select.tail.map TableItem.render =
      (select.tail.map TableItem.part).map FromPart.render := by
    rw [List.map_map]
    refine List.map_congr_left fun item _ => ?_
    cases item <;> rfl
  have joins : select.joins.map LeftJoin.render =
      (select.joins.map FromPart.join).map FromPart.render := by
    rw [List.map_map]
    rfl
  rw [renderTables, parts, tail, joins, List.map_cons, List.map_append, List.cons_append]
  rfl

/-- Every alias that one of the parts mentions is known, or introduced by that part or one before
it. -/
def InScope (known : List String) : List FromPart → Prop
  | [] => True
  | part :: rest =>
    part.mentioned ⊆ known ++ part.introduced ∧ InScope (known ++ part.introduced) rest

instance decidableInScope (known : List String) :
    (parts : List FromPart) → Decidable (InScope known parts)
  | [] => .isTrue trivial
  | part :: rest =>
    have := decidableInScope (known ++ part.introduced) rest
    inferInstanceAs (Decidable (part.mentioned ⊆ known ++ part.introduced ∧ _))

theorem inScope_append {known : List String} {parts more : List FromPart} :
    InScope known (parts ++ more) ↔
      InScope known parts ∧ InScope (known ++ parts.flatMap FromPart.introduced) more := by
  induction parts generalizing known with
  | nil => simp [InScope]
  | cons part rest ih =>
      rw [List.cons_append, InScope, InScope, ih, and_assoc, List.flatMap_cons, List.append_assoc]

/-- Joins introduce the aliases of their targets. -/
theorem introduced_joins (joins : List LeftJoin) :
    (joins.map FromPart.join).flatMap FromPart.introduced =
      (joins.map LeftJoin.target).map TableRef.alias_ := by
  rw [List.flatMap_map, List.map_map, List.map_eq_flatMap]
  rfl

/-- The parts of a select are in scope if its joins are after the first table, and the rest of its
table clause after the first table and the joins. -/
theorem Select.inScope_parts_iff (select : Select) :
    InScope [] select.parts ↔
      InScope [select.first.alias_] (select.joins.map .join) ∧
        InScope ((select.first :: select.joinedTables).map TableRef.alias_)
          (select.tail.map TableItem.part) := by
  have known : [] ++ (FromPart.table select.first).introduced = [select.first.alias_] := rfl
  rw [parts, InScope, known, inScope_append, introduced_joins, List.singleton_append]
  exact and_iff_right (List.nil_subset _)

/-- Parts in scope stay so when the known aliases change, if those that they mention are kept. -/
theorem InScope.change {known other : List String} {parts : List FromPart}
    (inScope : InScope known parts)
    (kept : ∀ part ∈ parts, ∀ alias_ ∈ part.mentioned, alias_ ∈ known → alias_ ∈ other) :
    InScope other parts := by
  induction parts generalizing known other with
  | nil => trivial
  | cons part rest ih =>
      obtain ⟨here, later⟩ := inScope
      refine ⟨fun alias_ mentioned => ?_, ih later fun next member alias_ mentioned old => ?_⟩
      · rcases List.mem_append.mp (here mentioned) with old | new
        · exact List.mem_append_left _ (kept part (List.mem_cons_self ..) alias_ mentioned old)
        · exact List.mem_append_right _ new
      · rcases List.mem_append.mp old with old | new
        · have inRest := List.mem_cons_of_mem part member
          exact List.mem_append_left _ (kept next inRest alias_ mentioned old)
        · exact List.mem_append_right _ new

/-- Parts in scope mention only aliases that are known or introduced by one of them. -/
theorem InScope.mentioned {known : List String} {parts : List FromPart}
    (inScope : InScope known parts) {part : FromPart} (member : part ∈ parts) :
    part.mentioned ⊆ known ++ parts.flatMap FromPart.introduced := by
  induction parts generalizing known with
  | nil => cases member
  | cons first rest ih =>
      obtain ⟨here, later⟩ := inScope
      rw [List.flatMap_cons, ← List.append_assoc]
      rcases List.mem_cons.mp member with rfl | inRest
      · exact fun alias_ mentioned => List.mem_append_left _ (here mentioned)
      · exact ih later inRest

/-- A table whose alias is known already can be taken out. -/
theorem InScope.without {known : List String} {before after : List FromPart} {reference : TableRef}
    (inScope : InScope known (before ++ .table reference :: after))
    (old : reference.alias_ ∈ known) : InScope known (before ++ after) := by
  obtain ⟨early, _, late⟩ := inScope_append.mp inScope
  refine inScope_append.mpr ⟨early, late.change fun _ _ alias_ _ inside => ?_⟩
  rcases List.mem_append.mp inside with inside | new
  · exact inside
  · rw [List.mem_singleton.mp new]
    exact List.mem_append_left _ old

end Sql

namespace Aliases

variable {schema : Schema}

/-! ## Joins and the entries before them -/

/-- The joins as parts of the text after `from`. -/
def joinParts (aliases : Aliases) : List Sql.FromPart :=
  (aliases.joins.map Join.toLeftJoin).map .join

/-- The joins introduce the aliases of the entries of hops. -/
theorem introduced_joinParts {aliases : Aliases} (reached : Reached schema aliases) :
    aliases.joinParts.flatMap Sql.FromPart.introduced = aliases.hopEntries.map Prod.fst := by
  rw [joinParts, Sql.introduced_joins, List.map_map (l := aliases.joins)]
  exact Registry.aliases_of_presents (Registry.presents_joins reached)

/-- **Every join has an owner that is a written table or an earlier joined one.** -/
theorem inScope_joins {aliases : Aliases} (reached : Reached schema aliases) :
    Sql.InScope (aliases.writtenEntries.map Prod.fst) aliases.joinParts := by
  induction reached with
  | empty => trivial
  | @entry aliases entity _ _ written? ih =>
      refine ih.change fun _ _ alias_ _ old => ?_
      rw [writtenEntries_bind, List.map_append]
      exact List.mem_append_left _ old
  | @hop aliases later before step ih =>
      rcases step.cases_join with rfl | ⟨owner, ownerAlias, column, target, hop, _, rfl⟩
      · exact ih
      · have whole : (aliases.withJoin owner ownerAlias column target).joinParts =
            aliases.joinParts ++
              [.join (joinOf owner ownerAlias column target aliases.next).toLeftJoin] := by
          simp [joinParts, withJoin]
        obtain ⟨_, entry⟩ := hop.stands
        have ownerKnown := List.mem_append.mpr (name_written_or_hop entry)
        rw [writtenEntries_withJoin, whole, Sql.inScope_append, introduced_joinParts before]
        refine ⟨ih, fun alias_ mentioned => ?_, trivial⟩
        rcases List.mem_cons.mp mentioned with rfl | targetToo
        · exact List.mem_append_left _ ownerKnown
        · exact List.mem_append_right _ targetToo

end Aliases

open Aliases (Hops Reached Realizes)

namespace Registry

variable {registry : Registry}

/-- **The conditions of a table clause mention joined tables, and written ones before them.** -/
theorem TableRun.inScope {aliases later last : Aliases} {items : List Sql.TableItem}
    (run : registry.TableRun aliases items later) (more : later.Extends last) {known : List String}
    (written : aliases.writtenEntries.map Prod.fst ⊆ known)
    (joined : last.hopEntries.map Prod.fst ⊆ known) :
    Sql.InScope known (items.map Sql.TableItem.part) := by
  induction run generalizing known with
  | done => trivial
  | @token aliases middle later expr items resolved others ih =>
      have same := Hops.writtenEntries_eq resolved.hops
      have hopsKept := Aliases.hopNames_mono (others.extends.trans more)
      refine ⟨fun alias_ mentioned => List.mem_append_left _ ?_, ?_⟩
      · obtain ⟨reference, member, qualified⟩ := List.mem_filterMap.mp mentioned
        obtain ⟨name, occurrence, _, _, rfl, found, _⟩ := resolved.typed reference member
        cases qualified
        have entry := Aliases.lookup_entries_iff.mp found
        rcases Aliases.name_written_or_hop entry with inClause | inHops
        · exact written (same ▸ inClause)
        · exact joined (hopsKept inHops)
      · exact ih more (fun _ old => List.mem_append_left _ (written (same ▸ old)))
          (List.Subset.trans joined (List.subset_append_left _ _))
  | @table aliases later entity written? items registered others ih =>
      have stillJoined := List.Subset.trans joined (List.subset_append_left _ [aliases.next])
      have stillWritten := List.Subset.trans written (List.subset_append_left _ [aliases.next])
      refine ⟨List.nil_subset _, ih more ?_ stillJoined⟩
      rw [Aliases.writtenEntries_bind, List.map_append]
      exact List.append_subset.mpr ⟨stillWritten, List.subset_append_right _ _⟩

end Registry

namespace Schema

open Registry

variable {schema : Schema}

/-! ## Compiled queries -/

/-- Every hop from an entry of the table clause starts from the first one. -/
def HopsFromFirst (entries : List (String × Occurrence)) : Prop :=
  ∀ alias_ occurrence source owner, entries.lookup alias_ = some occurrence →
    occurrence.source? = some source → entries.lookup source.alias_ = some owner →
      owner.source? = none → source.alias_ = "t0"

/-- Where the joins are in scope after the first table, every hop from a written table starts from
it. -/
theorem hopsFromFirst_of_inScope {aliases : Aliases} (reached : Reached schema aliases)
    (inScope : Sql.InScope ["t0"] aliases.joinParts) : HopsFromFirst aliases.entries := by
  intro alias_ occurrence source owner found hasSource ownerFound ownerWritten
  have inHops : (alias_, occurrence) ∈ aliases.hopEntries :=
    List.mem_filter.mpr ⟨Aliases.lookup_entries_iff.mp found, by rw [hasSource]; rfl⟩
  obtain ⟨join, member, realizes⟩ := Aliases.exists_related_of_mem reached.sound.joined.flip inHops
  obtain ⟨_, recorded, same, ownerAlias⟩ := realizes.source
  cases hasSource.symm.trans same
  have part : Sql.FromPart.join join.toLeftJoin ∈ aliases.joinParts :=
    List.mem_map_of_mem (List.mem_map_of_mem member)
  have known := inScope.mentioned part (List.mem_cons_self .. : join.ownerAlias ∈ _)
  rw [Aliases.introduced_joinParts reached, ← ownerAlias] at known
  rcases List.mem_append.mp known with first | joined
  · exact List.mem_singleton.mp first
  · have written : source.alias_ ∈ aliases.writtenEntries.map Prod.fst :=
      Aliases.mem_names_filter_iff.mpr
        ⟨owner, ownerFound, Option.isNone_iff_eq_none.mpr ownerWritten⟩
    exact (Aliases.not_written_and_hop written joined).elim

/-- Where every hop from a written table starts from the first one, the joins are in scope after it.
-/
theorem inScope_of_hopsFromFirst {aliases : Aliases} (reached : Reached schema aliases)
    (fromFirst : HopsFromFirst aliases.entries) : Sql.InScope ["t0"] aliases.joinParts := by
  -- The joins are in scope after all written tables, and of those they mention only the first.
  refine (Aliases.inScope_joins reached).change fun part member alias_ mentioned written => ?_
  obtain ⟨leftJoin, inside, rfl⟩ := List.mem_map.mp member
  obtain ⟨join, inJoins, rfl⟩ := List.mem_map.mp inside
  obtain ⟨entry, inHops, realizes⟩ := Aliases.exists_related_of_mem reached.sound.joined inJoins
  obtain ⟨targetAlias, source, hasSource, ownerAlias⟩ := realizes.source
  rcases List.mem_cons.mp mentioned with rfl | targetToo
  · obtain ⟨owner, ownerFound, isNone⟩ := Aliases.mem_names_filter_iff.mp written
    have found := Aliases.lookup_entries_iff.mpr (List.mem_of_mem_filter inHops)
    have first := fromFirst entry.1 entry.2 source owner found hasSource (ownerAlias ▸ ownerFound)
      (Option.isNone_iff_eq_none.mp isNone)
    exact List.mem_singleton.mpr (ownerAlias.symm.trans first)
  · have joined : alias_ ∈ aliases.hopEntries.map Prod.fst := by
      rw [List.mem_singleton.mp targetToo]
      exact targetAlias ▸ List.mem_map_of_mem inHops
    exact (Aliases.not_written_and_hop written joined).elim

theorem QueryRun.joins_inScope_iff {compiled : Compiled} (run : schema.QueryRun compiled) :
    Sql.InScope ["t0"] (compiled.select.joins.map .join) ↔ HopsFromFirst compiled.aliases := by
  cases run with
  | clauses run _ others =>
      have reached := others.reached (run.reached .empty)
      exact ⟨hopsFromFirst_of_inScope reached, inScope_of_hopsFromFirst reached⟩

/-- The rest of the table clause of a compiled query is in scope after the first table and the
joins. -/
theorem QueryRun.tail_inScope {compiled : Compiled} (run : schema.QueryRun compiled) :
    Sql.InScope ((compiled.select.first :: compiled.select.joinedTables).map Sql.TableRef.alias_)
      (compiled.select.tail.map Sql.TableItem.part) := by
  cases run with
  | @clauses first items tail _ _ _ bound last run split others =>
      have joined := Aliases.introduced_joinParts (others.reached (run.reached .empty))
      rw [Aliases.joinParts, Sql.introduced_joins] at joined
      obtain ⟨before, after, rfl, rfl, _⟩ := splitFirstTable?_eq_some split
      -- The first table is known from the start, so taking it out of its place changes nothing.
      have whole := run.inScope others.hops.extends (List.nil_subset _)
        (List.subset_cons_self first.alias_ (last.hopEntries.map Prod.fst))
      rw [List.map_append, List.map_cons] at whole
      rw [List.map_cons, Sql.Select.joinedTables, joined, List.map_append]
      exact whole.without (List.mem_cons_self ..)

/-- **A compiled query is in scope if and only if no hop starts from a table of its clause other
than the first.** The parts are those of the text after `from`, in the order of the text. What
follows the joins is in scope in any case. -/
theorem compile_inScope_iff (schema : Schema) (query : String) (compiled : Compiled)
    (accepted : schema.compile query = .ok compiled) :
    compiled.sql = "select " ++ Sql.renderList "," compiled.select.columns ++ " from " ++
        String.intercalate " " (compiled.select.parts.map Sql.FromPart.render) ++
        Sql.renderClause " where " compiled.select.filter ++
        Sql.renderClause " order by " compiled.select.order ∧
      Sql.InScope ((compiled.select.first :: compiled.select.joinedTables).map Sql.TableRef.alias_)
        (compiled.select.tail.map Sql.TableItem.part) ∧
      (Sql.InScope [] compiled.select.parts ↔ HopsFromFirst compiled.aliases) := by
  have run := queryRun_of_ok accepted
  refine ⟨by rw [Compiled.sql, Sql.Select.render, Sql.Select.renderTables_eq], run.tail_inScope, ?_⟩
  rw [Sql.Select.inScope_parts_iff, run.first_alias, run.joins_inScope_iff]
  exact and_iff_left run.tail_inScope

/-- The only hop starts from the first table, so nothing is mentioned too early. -/
theorem compile_inScope_iff_shops :
    ∃ compiled, Sample.schema.compile
        "select s.area.name from Shop s join Tag g on s.area = g.label" = .ok compiled ∧
      compiled.sql = "select t2.name from t_shop t0 left join t_area t2 on t0.area_id = t2.id"
        ++ " join t_tag t1 on t0.area_id = t1.label" ∧
      Sql.InScope [] compiled.select.parts ∧ HopsFromFirst compiled.aliases := by
  have shown : (Sample.schema.compile
      "select s.area.name from Shop s join Tag g on s.area = g.label").toOption.map
        (fun compiled => (compiled.sql, decide (Sql.InScope [] compiled.select.parts))) =
      some ("select t2.name from t_shop t0 left join t_area t2 on t0.area_id = t2.id"
        ++ " join t_tag t1 on t0.area_id = t1.label", true) := by
    decide +kernel
  obtain ⟨compiled, accepted, same⟩ := exists_ok_of_shown shown
  obtain ⟨text, inScope⟩ := Prod.mk.inj same
  have inScope : Sql.InScope [] compiled.select.parts := of_decide_eq_true inScope
  have fromFirst := (compile_inScope_iff Sample.schema _ compiled accepted).2.2.mp inScope
  exact ⟨compiled, accepted, text, inScope, fromFirst⟩

/-- A hop from the second table of a clause: its join stands before that table, and mentions the
alias `t1` that nothing has introduced there. -/
theorem compile_outOfScope :
    ∃ compiled, Sample.schema.compile "select b.area.name from Tag a, Shop b" = .ok compiled ∧
      compiled.sql =
        "select t2.name from t_tag t0 left join t_area t2 on t1.area_id = t2.id , t_shop t1" ∧
      ¬ Sql.InScope [] compiled.select.parts := by
  have shown : (Sample.schema.compile "select b.area.name from Tag a, Shop b").toOption.map
      (fun compiled => (compiled.sql, decide (Sql.InScope [] compiled.select.parts))) =
        some ("select t2.name from t_tag t0 left join t_area t2 on t1.area_id = t2.id , t_shop t1",
          false) := by
    decide +kernel
  obtain ⟨compiled, accepted, same⟩ := exists_ok_of_shown shown
  obtain ⟨text, outOfScope⟩ := Prod.mk.inj same
  exact ⟨compiled, accepted, text, of_decide_eq_false outOfScope⟩

end Schema

end EntityQuery

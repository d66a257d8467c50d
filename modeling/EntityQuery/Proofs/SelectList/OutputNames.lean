import EntityQuery.Proofs.Expansion.Completeness
import EntityQuery.Proofs.Growth.RepeatedItems
import EntityQuery.Proofs.Resolution.Query
import EntityQuery.Proofs.Text.Pieces

/-!
# Names of the columns of full selections

A full selection shows the column of a property under a name, which is the alias of the entity's
occurrence, a low line and the property. An alias has no low line in it, so that the first one of a
name ends the alias, whatever the property is (`eq_of_outputName`).

Every name in the select list of a compiled query comes from a full selection (`Stages.shown`). So
it is read back as an alias of the query and a property in one way only, and stands for the column
of this property; and since no text is kept twice, no name is given twice
(`Schema.compile_outputNames`).
-/

set_option autoImplicit false

namespace EntityQuery

open Registry
open Aliases (Reached)

/-- The name of an expression that has one. -/
def Sql.Expr.name? : Sql.Expr → Option String
  | .named _ name => some name
  | _ => none

theorem Sql.Expr.exists_named_of_name? {expr : Sql.Expr} {name : String}
    (named : expr.name? = some name) :
    ∃ inner, expr = .named inner name := by
  cases expr with
  | named inner other =>
      cases named
      exact ⟨inner, rfl⟩
  | _ => cases named

/-- The names in a select list, in its order. -/
def Sql.Select.outputNames (select : Sql.Select) : List String :=
  select.columns.filterMap Sql.Expr.name?

/-- The name of a property of the entity that an alias stands for. -/
def outputName (alias_ property : String) : String :=
  alias_ ++ "_" ++ property

/-! ## Reading a name back -/

theorem lowLine_notMem_aliasName (number : Nat) : '_' ∉ (aliasName number).toList := by
  intro member
  rw [aliasName, String.toList_append] at member
  rcases List.mem_append.mp member with first | digit
  · simp at first
  · rw [Nat.toString_eq_repr, Nat.toList_repr] at digit
    have isDigit := Nat.isDigit_of_mem_toDigits (by decide) (by decide) digit
    exact absurd isDigit (by decide)

/-- The first low line of a name stands between the alias and the property. -/
theorem split_outputName (number : Nat) (property : String) :
    (outputName (aliasName number) property).toList.takeWhile (· ≠ '_') =
      (aliasName number).toList ∧
      (outputName (aliasName number) property).toList.dropWhile (· ≠ '_') =
        '_' :: property.toList := by
  have whole : (outputName (aliasName number) property).toList =
      (aliasName number).toList ++ '_' :: property.toList := by
    simp [outputName]
  rw [whole]
  exact Text.split_append (lowLine_notMem_aliasName number) (by simp)

/-- **A name is read back in one way only.** -/
theorem eq_of_outputName {first second : Nat} {property other : String}
    (same : outputName (aliasName first) property = outputName (aliasName second) other) :
    first = second ∧ property = other := by
  obtain ⟨front, behind⟩ := split_outputName first property
  obtain ⟨otherFront, otherBehind⟩ := split_outputName second other
  rw [same] at front behind
  have aliases := otherFront.symm.trans front
  have properties := List.cons.inj (otherBehind.symm.trans behind)
  exact ⟨aliasName_injective (String.toList_injective aliases.symm),
    String.toList_injective properties.2.symm⟩

namespace Schema

variable {schema : Schema}

/-! ## Where names come from -/

/-- A column of a registered entity, under its name in a full selection of an occurrence of the
entity. -/
def Shown (schema : Schema) (aliases : Aliases) (expr : Sql.Expr) : Prop :=
  ∃ entity alias_ column, aliases.StandsFor alias_ entity.name ∧
    schema.lookup entity.name = some entity ∧ column ∈ entity.columns ∧
    expr = namedColumn alias_ column

theorem Shown.mono {earlier later : Aliases} (more : earlier.Extends later) {expr : Sql.Expr}
    (shown : schema.Shown earlier expr) : schema.Shown later expr := by
  obtain ⟨entity, alias_, column, stands, rest⟩ := shown
  exact ⟨entity, alias_, column, stands.mono more, rest⟩

/-- What belongs to the expansion of an occurrence is shown in a full selection of an occurrence. -/
theorem Belongs.shown {visiting : List String} {entity : Entity} {alias_ : String} {later : Aliases}
    {expr : Sql.Expr} (belongs : schema.Belongs visiting entity alias_ later expr)
    (stands : later.StandsFor alias_ entity.name)
    (registered : schema.lookup entity.name = some entity) :
    schema.Shown later expr := by
  cases belongs with
  | own member _ => exact ⟨entity, alias_, _, stands, registered, member, rfl⟩
  | @reached target targetAlias column reachable _ first member _ =>
      obtain ⟨_, _, last⟩ := Relation.TransGen.tail'_iff.mp reachable
      exact ⟨target, targetAlias, column, Aliases.standsFor_of_first? first, last.registered,
        member, rfl⟩

/-- All fragments of a full selection are shown in this way. -/
theorem shown_of_expand_ok {entity : Entity} {alias_ : String} {aliases later : Aliases}
    {exprs : List Sql.Expr} (stands : aliases.StandsFor alias_ entity.name)
    (registered : schema.lookup entity.name = some entity)
    (succeeds : schema.expand entity alias_ aliases = .ok (exprs, later)) :
    ∀ expr ∈ exprs, schema.Shown later expr := by
  have expansion := expansion_of_ok succeeds
  intro expr member
  have belongs := expansion.belongs (List.Subset.refl _) expr member
  exact belongs.shown (stands.mono expansion.extends) registered

/-- **A fragment with a name comes from a full selection.** -/
theorem selectItem_shown {item : String} {aliases later : Aliases} {exprs : List Sql.Expr}
    (reached : Reached schema aliases)
    (succeeds : schema.selectItem item aliases = .ok (exprs, later)) {expr : Sql.Expr}
    (member : expr ∈ exprs) (named : expr.name?.isSome = true) : schema.Shown later expr := by
  cases selectItem_eq_ok_iff.mp succeeds with
  | call | column =>
      rw [List.mem_singleton.mp member] at named
      cases named
  | entity _ walked expanded =>
      cases (walk_lands reached walked).2 with
      | entity stands registered _ =>
          exact shown_of_expand_ok stands registered expanded expr member

theorem selectItems_shown {items : List String} {aliases later : Aliases} {exprs : List Sql.Expr}
    (reached : Reached schema aliases)
    (succeeds : schema.selectItems items aliases = .ok (exprs, later)) {expr : Sql.Expr}
    (member : expr ∈ exprs) (named : expr.name?.isSome = true) : schema.Shown later expr := by
  induction items generalizing aliases exprs with
  | nil =>
      cases succeeds
      cases member
  | cons item rest ih =>
      obtain ⟨first, middle, more, resolved, remaining, rfl⟩ :=
        selectItems_cons_eq_ok_iff.mp succeeds
      rcases List.mem_append.mp member with inFirst | inMore
      · exact (selectItem_shown reached resolved inFirst named).mono
          (selectItems_keep remaining).more
      · exact ih ((selectItem_resolved reached resolved).reached reached) remaining inMore

theorem selectClause_shown {text : String} {aliases later : Aliases} {exprs : List Sql.Expr}
    (reached : Reached schema aliases)
    (succeeds : schema.selectClause text aliases = .ok (exprs, later)) {expr : Sql.Expr}
    (member : expr ∈ exprs) (named : expr.name?.isSome = true) : schema.Shown later expr := by
  obtain ⟨items, all, _, resolved, _, rfl⟩ := selectClause_eq_ok_iff.mp succeeds
  exact selectItems_shown reached resolved (keepFirst_subset all member) named

/-- The table of a compiled query, of which the alias map is made, shows every column with a name.
-/
theorem Stages.shown {clauses : Query.Clauses} {compiled : Compiled}
    (stages : schema.Stages clauses compiled) :
    ∃ last, compiled.aliases = last.entries ∧
      ∀ expr ∈ compiled.select.columns, expr.name?.isSome = true → schema.Shown last expr := by
  cases stages with
  | @clauses first tail columns filter order bound selected filtered last table select
      filterOk orderOk =>
      obtain ⟨items, run, _⟩ := tableRun_of_tableClause .empty table
      have more := (condition_keeps filterOk).more.trans (condition_keeps orderOk).more
      exact ⟨last, rfl, fun expr member named =>
        (selectClause_shown (run.reached .empty) select member named).mono more⟩

/-! ## What names stand for -/

/-- The column of a property of the entity that an alias stands for. -/
def ColumnUnder (schema : Schema) (entries : List (String × Occurrence)) (alias_ property : String)
    (expr : Sql.Expr) : Prop :=
  ∃ occurrence entity column, entries.lookup alias_ = some occurrence ∧
    schema.lookup occurrence.entity = some entity ∧ entity.column? property = some column ∧
    expr = .column (.of alias_ column.columnName)

/-- An alias and a property have one column. -/
theorem ColumnUnder.unique {entries : List (String × Occurrence)} {alias_ property : String}
    {first second : Sql.Expr} (firstUnder : schema.ColumnUnder entries alias_ property first)
    (secondUnder : schema.ColumnUnder entries alias_ property second) : first = second := by
  obtain ⟨_, _, _, occurs, registered, named, rfl⟩ := firstUnder
  obtain ⟨_, _, _, occursToo, registeredToo, namedToo, rfl⟩ := secondUnder
  cases occurs.symm.trans occursToo
  cases registered.symm.trans registeredToo
  cases named.symm.trans namedToo
  rfl

/-- Where no two columns have one property, each column is that of its property. -/
theorem column?_of_mem {entity : Entity} (distinct : (entity.columns.map Column.property).Nodup)
    {column : Column} (member : column ∈ entity.columns) :
    entity.column? column.property = some column := by
  have isSome : (entity.column? column.property).isSome = true :=
    List.find?_isSome.mpr ⟨column, member, by simp⟩
  obtain ⟨first, found⟩ := Option.isSome_iff_exists.mp isSome
  have same := List.inj_on_of_nodup_map distinct (Entity.mem_of_column? found) member
    (Entity.property_of_column? found)
  rw [found, same]

/-- A column that is shown has the name of an alias and a property, and is their column. -/
theorem Shown.columnUnder
    (distinct : ∀ entity ∈ schema.entities, (entity.columns.map Column.property).Nodup)
    {aliases : Aliases} {expr : Sql.Expr} {name : String}
    (shown : schema.Shown aliases (.named expr name)) :
    ∃ number property, name = outputName (aliasName number) property ∧
      schema.ColumnUnder aliases.entries (aliasName number) property expr := by
  obtain ⟨entity, alias_, column, ⟨source?, entry⟩, registered, member, same⟩ := shown
  obtain ⟨rfl, rfl⟩ := Sql.Expr.named.inj same
  obtain ⟨number, _, rfl⟩ := Aliases.mem_entries_iff.mp entry
  have named := column?_of_mem (distinct entity (mem_of_lookup registered)) member
  exact ⟨number, column.property, rfl, _, entity, column,
    Aliases.lookup_entries_iff.mpr entry, registered, named, rfl⟩

/-- Columns that are shown under one name are the same. -/
theorem Shown.eq_of_name
    (distinct : ∀ entity ∈ schema.entities, (entity.columns.map Column.property).Nodup)
    {aliases : Aliases} {first second : Sql.Expr} {name : String}
    (firstShown : schema.Shown aliases (.named first name))
    (secondShown : schema.Shown aliases (.named second name)) : first = second := by
  obtain ⟨_, _, rfl, firstUnder⟩ := firstShown.columnUnder distinct
  obtain ⟨_, _, same, secondUnder⟩ := secondShown.columnUnder distinct
  obtain ⟨rfl, rfl⟩ := eq_of_outputName same
  exact firstUnder.unique secondUnder

/-- **Columns that are shown and have texts of their own have names of their own.** -/
theorem outputNames_nodup
    (distinct : ∀ entity ∈ schema.entities, (entity.columns.map Column.property).Nodup)
    {aliases : Aliases} {columns : List Sql.Expr} (texts : (columns.map Sql.Expr.render).Nodup)
    (shown : ∀ expr ∈ columns, expr.name?.isSome = true → schema.Shown aliases expr) :
    (columns.filterMap Sql.Expr.name?).Nodup := by
  rw [List.Nodup, List.pairwise_map] at texts
  rw [List.Nodup, List.pairwise_filterMap]
  refine texts.imp_of_mem fun firstMember secondMember differ => ?_
  intro name firstNamed other secondNamed same
  have firstShown := shown _ firstMember (by rw [firstNamed]; rfl)
  have secondShown := shown _ secondMember (by rw [secondNamed]; rfl)
  obtain ⟨first, rfl⟩ := Sql.Expr.exists_named_of_name? firstNamed
  obtain ⟨second, rfl⟩ := Sql.Expr.exists_named_of_name? secondNamed
  subst same
  exact differ (by rw [firstShown.eq_of_name distinct secondShown])

/-- **The names in the select list of a compiled query are read back in one way only.** No name is
given twice. Each is made up of an alias of the query and a text in one way, the text is a property
of the entity that the alias stands for, and the name is given to the column of this property. -/
theorem compile_outputNames (schema : Schema) (query : String) (compiled : Compiled)
    (distinct : ∀ entity ∈ schema.entities, (entity.columns.map Column.property).Nodup)
    (accepted : schema.compile query = .ok compiled) :
    compiled.select.outputNames.Nodup ∧
      ∀ expr name, Sql.Expr.named expr name ∈ compiled.select.columns →
        ∃ alias_ property, schema.ColumnUnder compiled.aliases alias_ property expr ∧
          ∀ otherAlias other,
            otherAlias ∈ compiled.aliases.map Prod.fst ∧ name = outputName otherAlias other ↔
              otherAlias = alias_ ∧ other = property := by
  obtain ⟨_, _, stages⟩ := exists_stages accepted
  obtain ⟨last, entries, shown⟩ := stages.shown
  refine ⟨outputNames_nodup distinct stages.columns_sound.2 shown, fun expr name member => ?_⟩
  obtain ⟨number, property, rfl, under⟩ := (shown _ member rfl).columnUnder distinct
  rw [entries]
  refine ⟨aliasName number, property, under, fun otherAlias other => ⟨?_, ?_⟩⟩
  · rintro ⟨key, same⟩
    rw [Aliases.entries_keys] at key
    obtain ⟨otherNumber, _, rfl⟩ := List.mem_map.mp key
    obtain ⟨rfl, rfl⟩ := eq_of_outputName same
    exact ⟨rfl, rfl⟩
  · rintro ⟨rfl, rfl⟩
    obtain ⟨occurrence, _, _, occurs, _⟩ := under
    exact ⟨List.mem_map.mpr ⟨_, Aliases.lookup_entries_iff.mp occurs, rfl⟩, rfl⟩

/-- A shop and another area than its own, in full: the way from the shop leads to the first area. -/
theorem compile_outputNames_shops :
    ∃ compiled expr,
      (∀ entity ∈ Sample.schema.entities, (entity.columns.map Column.property).Nodup) ∧
      Sample.schema.compile "select s, b from Area a, Shop s, Area b" = .ok compiled ∧
      compiled.select.outputNames = ["t1_id", "t0_id", "t0_name", "t2_id", "t2_name"] ∧
      Sql.Expr.named expr "t2_name" ∈ compiled.select.columns ∧
      compiled.select.outputNames.Nodup ∧
        ∃ alias_ property, Sample.schema.ColumnUnder compiled.aliases alias_ property expr ∧
          ∀ otherAlias other,
            otherAlias ∈ compiled.aliases.map Prod.fst ∧ "t2_name" = outputName otherAlias other ↔
              otherAlias = alias_ ∧ other = property := by
  have distinct : ∀ entity ∈ Sample.schema.entities,
      (entity.columns.map Column.property).Nodup := by
    decide
  have split : (Query.splitClauses "select s, b from Area a, Shop s, Area b").toOption.map id =
      some ⟨"s, b", "Area a, Shop s, Area b", none, none⟩ := by
    decide +kernel
  have table : (Sample.schema.tableClause "Area a, Shop s, Area b" .empty).toOption.map Prod.snd =
      some
        (((Aliases.empty.bind "Area" (some "a")).2.bind "Shop" (some "s")).2.bind "Area"
          (some "b")).2 := by
    decide +kernel
  have items : Query.splitSelectList "s, b" = .ok ["s", "b"] := by decide +kernel
  have select : (Sample.schema.selectItems ["s", "b"]
      (((Aliases.empty.bind "Area" (some "a")).2.bind "Shop" (some "s")).2.bind "Area"
        (some "b")).2).toOption.map (fun result => (keepFirst result.1).filterMap Sql.Expr.name?) =
        some ["t1_id", "t0_id", "t0_name", "t2_id", "t2_name"] := by
    cbv
  obtain ⟨_, splitOk, rfl⟩ := exists_ok_of_shown split
  obtain ⟨⟨⟨first, tail⟩, bound⟩, tableOk, rfl⟩ := exists_ok_of_shown table
  obtain ⟨⟨exprs, last⟩, itemsOk, names⟩ := exists_ok_of_shown select
  have notEmpty : exprs ≠ [] := by
    rintro rfl
    cases names
  have selectOk := selectClause_eq_ok_iff.mpr ⟨_, _, items, itemsOk, notEmpty, rfl⟩
  have stages : Sample.schema.Stages ⟨"s, b", "Area a, Shop s, Area b", none, none⟩ _ :=
    .clauses tableOk selectOk rfl rfl
  have accepted :=
    bind_ok (congrArg (Except.mapError MappingError.ofText) splitOk) stages.compileClauses_eq
  have listed : "t2_name" ∈ (keepFirst exprs).filterMap Sql.Expr.name? := by
    rw [names]
    decide
  obtain ⟨named, member, isName⟩ := List.mem_filterMap.mp listed
  obtain ⟨expr, rfl⟩ := Sql.Expr.exists_named_of_name? isName
  have whole := compile_outputNames Sample.schema _ _ distinct accepted
  exact ⟨_, expr, distinct, accepted, names, member, whole.1, whole.2 expr "t2_name" member⟩

end Schema

end EntityQuery

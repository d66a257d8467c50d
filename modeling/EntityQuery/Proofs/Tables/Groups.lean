import EntityQuery.Proofs.Sample
import EntityQuery.Proofs.Tables.Addressing
import EntityQuery.Proofs.Tables.Scan

/-!
# The groups of a table clause

The tokens of a table clause fall into groups, one for each part of the clause and in the same order
(`Registry.Grouped`). The group of a table is an entity, with its alias if one follows; the group of
a condition is an equation of two fields; every other part has a single token, whose column it is if
the token is a path and whose text it is otherwise.

Each step of the scanner takes one group (`TableScan.Step.takes`). So a clause that is accepted is
made up of its groups, with no token left out and none taken twice, and if it does not start with a
connective then its first group is that of the first table (`Registry.tableClause_groups`).
-/

set_option autoImplicit false

namespace EntityQuery

open Query (Token)

/-! ## Groups -/

/-- Tokens of a table clause that follow each other, and the part of the clause that they make up.
-/
structure TableGroup where
  tokens : List Token
  item : Sql.TableItem

/-- What is expected after a group: an entity after a comma or a `join`, a condition after an `on`.
-/
def TableGroup.next (group : TableGroup) : TableState :=
  match group.tokens with
  | [token] => if token.isSeparator then .entity else if token.isOn then .condition else .any
  | _ => .any

/-- A word other than those that belong to a join. -/
def IsAliasWord (token : Token) : Prop :=
  token.kind = .word ∧ ∀ word ∈ joinWords, Text.sameIgnoringCase token.lexeme word = false

theorem isAliasToken_iff {token : Token} : isAliasToken token = true ↔ IsAliasWord token := by
  simp [isAliasToken, IsAliasWord]

namespace Registry

/-- A group in front of other tokens, where something is expected, and the alias table after it. -/
inductive Reads (registry : Registry) (rest : List Token) (aliases : Aliases) :
    TableState → TableGroup → Aliases → Prop where
  /-- An entity that no alias follows. -/
  | entity {token : Token} {entity : Entity} (plain : token.isConnective = false)
      (registered : registry.lookup token.lexeme = some entity)
      (noAlias : ∀ next ∈ rest.head?, ¬IsAliasWord next) :
      Reads registry rest aliases .entity ⟨[token], .table ⟨entity.table, aliases.next⟩⟩
        (aliases.bind entity.name none).2
  /-- An entity with its alias. -/
  | aliased {token name : Token} {entity : Entity} (plain : token.isConnective = false)
      (registered : registry.lookup token.lexeme = some entity) (isAlias : IsAliasWord name) :
      Reads registry rest aliases .entity ⟨[token, name], .table ⟨entity.table, aliases.next⟩⟩
        (aliases.bind entity.name (some name.lexeme)).2
  /-- An equation of two fields, which are resolved one after the other. -/
  | condition {left mark right : Token} {middle later : Aliases} {leftColumn rightColumn : Sql.Expr}
      (plain : left.isConnective = false) (leftField : left.kind = .path ∨ left.kind = .word)
      (equals : mark.isMark "=" = true) (rightField : right.kind = .path ∨ right.kind = .word)
      (left_ok : registry.field .referencingKey left.lexeme aliases = .ok (leftColumn, middle))
      (right_ok : registry.field .referencingKey right.lexeme middle = .ok (rightColumn, later)) :
      Reads registry rest aliases .condition
        ⟨[left, mark, right], .token (.equation leftColumn rightColumn)⟩ later
  /-- A path, which is resolved. -/
  | path {token : Token} {later : Aliases} {column : Sql.Expr} (isPath : token.kind = .path)
      (resolved : registry.field .referencingKey token.lexeme aliases = .ok (column, later)) :
      Reads registry rest aliases .any ⟨[token], .token column⟩ later
  /-- Another token, which is copied. A connective may stand anywhere. -/
  | copied {state : TableState} {token : Token} (noPath : token.kind ≠ .path)
      (place : state = .any ∨ token.isConnective = true) :
      Reads registry rest aliases state ⟨[token], .token (.raw token.lexeme)⟩ aliases

/-- Groups one after another, each read where the one before it ends. -/
inductive Grouped (registry : Registry) :
    TableState → Aliases → List TableGroup → Aliases → Prop where
  | done (state : TableState) (aliases : Aliases) : Grouped registry state aliases [] aliases
  | cons {state : TableState} {aliases middle later : Aliases} {group : TableGroup}
      {groups : List TableGroup}
      (reads : registry.Reads (groups.flatMap TableGroup.tokens) aliases state group middle)
      (others : Grouped registry group.next middle groups later) :
      Grouped registry state aliases (group :: groups) later

variable {registry : Registry}

theorem Reads.tokens_ne_nil {rest : List Token} {aliases later : Aliases} {state : TableState}
    {group : TableGroup} (reads : registry.Reads rest aliases state group later) :
    group.tokens ≠ [] := by
  cases reads <;> exact List.cons_ne_nil _ _

/-- No group is empty. -/
theorem Grouped.tokens_ne_nil {state : TableState} {aliases later : Aliases}
    {groups : List TableGroup} (grouped : registry.Grouped state aliases groups later) :
    ∀ group ∈ groups, group.tokens ≠ [] := by
  induction grouped with
  | done => exact fun _ member => nomatch member
  | cons reads _ ih =>
      intro group member
      rcases List.mem_cons.mp member with rfl | later
      · exact reads.tokens_ne_nil
      · exact ih group later

end Registry

/-! ## Groups and steps -/

theorem TableGroup.next_of_plain {token : Token} (plain : token.isConnective = false)
    (item : Sql.TableItem) : TableGroup.next ⟨[token], item⟩ = .any := by
  simp [TableGroup.next, Token.not_isSeparator_of_plain plain, Token.not_isOn_of_plain plain]

/-- A connective is no path. -/
theorem Query.Token.kind_ne_path_of_isConnective {token : Token}
    (connective : token.isConnective = true) :
    token.kind ≠ .path := by
  intro isPath
  simp [Token.isConnective, Token.isSeparator, Token.isOn, Token.isMark, Token.isKeyword,
    isPath] at connective

theorem isFieldToken_iff {token : Token} :
    isFieldToken token = true ↔ token.kind = .path ∨ token.kind = .word := by
  simp [isFieldToken]

namespace TableScan

variable {registry : Registry}

/-- A step that takes a group: it is read in its place, and gives its part in front of the others.
-/
structure Takes (registry : Registry) (scan : TableScan) (group : TableGroup)
    (next : TableScan) : Prop where
  reads : registry.Reads next.tokens scan.aliases scan.state group next.aliases
  tokens : scan.tokens = group.tokens ++ next.tokens
  state : next.state = group.next
  outcome : scan.outcome registry = inFront group.item (next.outcome registry)

/-- An entity is taken with its alias, or by itself if no alias follows. -/
theorem exists_takes_entity {token : Token} {rest : List Token} {aliases : Aliases}
    {entity : Entity} (plain : token.isConnective = false)
    (known : registry.entity token.lexeme = .ok entity) :
    ∃ group, Takes registry ⟨.entity, token :: rest, aliases⟩ group
      ⟨.any, (takeAlias rest).2, (aliases.bind entity.name (takeAlias rest).1).2⟩ := by
  have registered := Registry.lookup_of_entity known
  have gives : outcome registry ⟨.entity, token :: rest, aliases⟩ = _ :=
    (tableItems_entity plain).trans (bind_of_ok known)
  have single : TableState.any = TableGroup.next ⟨[token], .table ⟨entity.table, aliases.next⟩⟩ :=
    (TableGroup.next_of_plain plain _).symm
  cases rest with
  | nil => exact ⟨_, .entity plain registered (fun _ member => nomatch member), rfl, single, gives⟩
  | cons name after =>
      by_cases isAlias : isAliasToken name = true
      · rw [takeAlias, if_pos isAlias] at gives ⊢
        exact ⟨_, .aliased plain registered (isAliasToken_iff.mp isAlias), rfl, rfl, gives⟩
      · rw [takeAlias, if_neg isAlias] at gives ⊢
        refine ⟨_, .entity plain registered ?_, rfl, single, gives⟩
        rintro next ⟨rfl⟩
        exact fun word => isAlias (isAliasToken_iff.mpr word)

/-- **Each step takes a group.** -/
theorem Step.takes {scan next : TableScan} (step : Step registry scan next) :
    ∃ group, Takes registry scan group next := by
  cases step with
  | @separator state token rest aliases separator =>
      have connective := Token.isConnective_of_isSeparator separator
      exact ⟨⟨[token], .token (.raw token.lexeme)⟩,
        .copied (Token.kind_ne_path_of_isConnective connective) (.inr connective), rfl,
        (if_pos separator).symm, tableItems_separator separator state⟩
  | @on state token rest aliases on =>
      have connective := Token.isConnective_of_isOn on
      refine ⟨⟨[token], .token (.raw token.lexeme)⟩,
        .copied (Token.kind_ne_path_of_isConnective connective) (.inr connective), rfl, ?_,
        tableItems_on on state⟩
      simp [TableGroup.next, Token.not_isSeparator_of_isOn on, on]
  | entity plain known => exact exists_takes_entity plain known
  | @condition token right rest after aliases middle later leftColumn rightColumn plain
      complete left_ok
      right_ok =>
      obtain ⟨mark, rfl, equals, leftField, rightField⟩ := takeCondition?_eq_some.mp complete
      exact ⟨⟨[token, mark, right], .token (.equation leftColumn rightColumn)⟩,
        .condition plain (isFieldToken_iff.mp leftField) equals
          (isFieldToken_iff.mp rightField) left_ok
          right_ok, rfl, rfl,
        (tableItems_condition plain complete).trans
          ((bind_of_ok left_ok).trans (bind_of_ok right_ok))⟩
  | @other token rest aliases later expr plain resolved =>
      have gives : outcome registry ⟨.any, token :: rest, aliases⟩ = _ :=
        (tableItems_any plain).trans (bind_of_ok resolved)
      refine ⟨⟨[token], .token expr⟩, ?_, rfl, (TableGroup.next_of_plain plain _).symm, gives⟩
      by_cases isPath : token.kind = .path
      · rw [Registry.token, if_pos isPath] at resolved
        exact .path isPath resolved
      · rw [Registry.token, if_neg isPath] at resolved
        cases resolved
        exact .copied isPath (.inl rfl)

/-- **Steps up to the end of a clause take its tokens in groups.** -/
theorem Runs.grouped {scan : TableScan} {state : TableState} {later : Aliases}
    (runs : Runs registry scan ⟨state, [], later⟩) :
    ∃ groups, registry.Grouped scan.state scan.aliases groups later ∧
      groups.flatMap TableGroup.tokens = scan.tokens ∧
      scan.outcome registry = .ok (groups.map TableGroup.item, later) := by
  induction runs using Relation.ReflTransGen.head_induction_on with
  | refl => exact ⟨[], .done _ _, rfl, outcome_nil registry state later⟩
  | head step _ ih =>
      obtain ⟨group, takes⟩ := step.takes
      obtain ⟨groups, grouped, whole, items⟩ := ih
      -- The tokens of the other groups are what the first one is read in front of.
      refine ⟨group :: groups, .cons (whole ▸ takes.reads) (takes.state ▸ grouped), ?_, ?_⟩
      · rw [List.flatMap_cons, whole, takes.tokens]
      · exact takes.outcome.trans (bind_of_ok items)

end TableScan

/-! ## Table clauses -/

namespace Registry

variable {registry : Registry}

/-- The tables that a clause adds have ascending numbers. -/
theorem Adds.ascending {entries : List TableEntry} {references : List Sql.TableRef}
    {aliases later : Aliases} (adds : registry.Adds entries references aliases later) :
    ∃ numbers : List Nat, references.map Sql.TableRef.alias_ = numbers.map aliasName ∧
      numbers.Pairwise (· < ·) := by
  obtain ⟨added, whole, inOrder⟩ := adds.occurrences
  have within := (inOrder.trans (List.sublist_append_right aliases.entries added)).map Prod.fst
  rw [← whole, adds.aliases_presented] at within
  exact Aliases.ascending_of_sublist within

/-- Where an entity is expected and there is no connective, the first part is a table. -/
theorem Grouped.exists_table {aliases later : Aliases} {groups : List TableGroup}
    (grouped : registry.Grouped .entity aliases groups later) (notEmpty : groups ≠ [])
    (plain : ∀ token ∈ (groups.flatMap TableGroup.tokens).head?, token.isConnective = false) :
    ∃ reference items, groups.map TableGroup.item = .table reference :: items := by
  cases grouped with
  | done => exact absurd rfl notEmpty
  | cons reads _ =>
      cases reads with
      | entity => exact ⟨_, _, rfl⟩
      | aliased => exact ⟨_, _, rfl⟩
      | copied _ place =>
          have connective := place.resolve_left (by decide)
          rw [plain _ rfl] at connective
          cases connective

/-- **Over any registry, a table clause that is accepted is made up of the groups of its parts.** If
it does not start with a connective, its tokens are those of the groups one after another. There is
a group for the first table and one for each of the other parts in their order, and the numbers of
the tables ascend. -/
theorem tableClause_groups (registry : Registry) (text : String) (aliases later : Aliases)
    (first : Sql.TableRef) (tail : List Sql.TableItem)
    (accepted : registry.tableClause text aliases = .ok ((first, tail), later)) :
    ∃ tokens, Query.tokenize .table text = .ok tokens ∧
      ((∀ token ∈ tokens.head?, token.isConnective = false) →
        ∃ groups, registry.Grouped .entity aliases groups later ∧
          groups.flatMap TableGroup.tokens = tokens ∧
          groups.map TableGroup.item = .table first :: tail ∧
          (∀ group ∈ groups, group.tokens ≠ []) ∧
          ∃ numbers : List Nat,
            (first :: tail.filterMap Sql.TableItem.table?).map Sql.TableRef.alias_ =
              numbers.map aliasName ∧
              numbers.Pairwise (· < ·)) := by
  obtain ⟨tokens, items, scanned, itemsOk, split⟩ := exists_items_of_tableClause accepted
  refine ⟨tokens, scanned, fun plain => ?_⟩
  obtain ⟨final, runs⟩ := TableScan.ok_iff_runs.mp ⟨items, itemsOk⟩
  obtain ⟨groups, grouped, rfl, parts⟩ := runs.grouped
  cases itemsOk.symm.trans parts
  have ascending := (adds_of_tableItems itemsOk).ascending
  rw [tables_of_splitFirstTable? split] at ascending
  have notEmpty : groups ≠ [] := by
    rintro rfl
    cases split
  obtain ⟨reference, others, same⟩ := grouped.exists_table notEmpty plain
  rw [same] at split
  cases split
  exact ⟨groups, grouped, rfl, same, grouped.tokens_ne_nil, ascending⟩

/-- An entity with an alias and one without, a path in a condition, and the words of a join in
between. -/
theorem tableClause_groups_shops :
    ∃ first tail later,
      Sample.schema.tableClause "Shop s left join Area a on s.area = a, Tag" .empty =
        .ok ((first, tail), later) ∧
      (.table first :: tail).map Sql.TableItem.render =
        ["t_shop t0", "left", "join", "t_area t1", "on", "t0.area_id = t1.id", ",", "t_tag t2"] ∧
      ∃ tokens,
        Query.tokenize .table "Shop s left join Area a on s.area = a, Tag" = .ok tokens ∧
        (∀ token ∈ tokens.head?, token.isConnective = false) ∧
        ∃ groups, Sample.schema.Grouped .entity .empty groups later ∧
          groups.flatMap TableGroup.tokens = tokens ∧
          groups.map TableGroup.item = .table first :: tail ∧
          (∀ group ∈ groups, group.tokens ≠ []) ∧
          ∃ numbers : List Nat,
            (first :: tail.filterMap Sql.TableItem.table?).map Sql.TableRef.alias_ =
              numbers.map aliasName ∧
              numbers.Pairwise (· < ·) := by
  have shown : (Sample.schema.tableClause "Shop s left join Area a on s.area = a, Tag"
      .empty).toOption.map
        (fun result => (.table result.1.1 :: result.1.2).map Sql.TableItem.render) =
        some ["t_shop t0", "left", "join", "t_area t1", "on", "t0.area_id = t1.id", ",",
          "t_tag t2"] := by
    decide +kernel
  obtain ⟨⟨⟨first, tail⟩, later⟩, accepted, texts⟩ := exists_ok_of_shown shown
  obtain ⟨tokens, scanned, grouped⟩ :=
    tableClause_groups Sample.schema _ .empty later first tail accepted
  have begins : (Query.tokenize .table "Shop s left join Area a on s.area = a, Tag").toOption.map
      (fun tokens => tokens.head?.any fun token => !token.isConnective) = some true := by
    decide +kernel
  have plain : ∀ token ∈ tokens.head?, token.isConnective = false := by
    rw [scanned] at begins
    have holds : tokens.head?.any (fun token => !token.isConnective) = true :=
      Option.some.inj begins
    intro token isFirst
    rw [Option.mem_def.mp isFirst] at holds
    simpa using holds
  exact ⟨first, tail, later, accepted, texts, tokens, scanned, plain, grouped plain⟩

end Registry

end EntityQuery

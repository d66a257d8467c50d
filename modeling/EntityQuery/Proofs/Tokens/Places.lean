import EntityQuery.Mapping.Query
import EntityQuery.Proofs.Tables.Addressing
import EntityQuery.Proofs.Tokens.Lexing

/-!
# The places of tokens

Where its tokens stand in a text makes no difference to a clause: clauses whose tokens say the same
are compiled alike (`Schema.tokens_of_sameLexemes`, `Schema.tableItems_of_sameLexemes`), and table
clauses list the same entries (`tableEntries_of_sameLexemes`).
-/

set_option autoImplicit false

namespace EntityQuery

open Registry
open Query (Token)

variable {token : Token} {tokens others : List Token}

/-- Tokens that say the same differ in their places only. -/
theorem Query.Token.eq_of_toLexeme {token other : Token} (same : other.toLexeme = token.toLexeme) :
    other = { token with first := other.first, last := other.last } := by
  obtain ⟨kind, lexeme, first, last⟩ := token
  obtain ⟨otherKind, otherLexeme, otherFirst, otherLast⟩ := other
  obtain ⟨rfl, sameText⟩ := Query.Lexeme.mk.inj same
  obtain rfl := String.toList_inj.mp sameText
  rfl

/-- Lists of tokens that say the same begin with tokens that do. -/
theorem exists_cons_of_sameLexemes {rest : List Token}
    (same : others.map Token.toLexeme = (token :: rest).map Token.toLexeme) :
    ∃ first last more, others = { token with first, last } :: more ∧
      more.map Token.toLexeme = rest.map Token.toLexeme := by
  obtain ⟨other, more, rfl, sameFirst, sameRest⟩ := List.map_eq_cons_iff.mp same
  refine ⟨other.first, other.last, more, ?_, sameRest⟩
  rw [← Query.Token.eq_of_toLexeme sameFirst]

/-- The alias after an entity does not depend on places. -/
theorem takeAlias_of_sameLexemes (same : others.map Token.toLexeme = tokens.map Token.toLexeme) :
    (takeAlias others).1 = (takeAlias tokens).1 ∧
      (takeAlias others).2.map Token.toLexeme = (takeAlias tokens).2.map Token.toLexeme := by
  cases tokens with
  | nil =>
      rw [List.map_nil, List.map_eq_nil_iff] at same
      subst same
      exact ⟨rfl, rfl⟩
  | cons token rest =>
      obtain ⟨first, last, more, rfl, sameRest⟩ := exists_cons_of_sameLexemes same
      have alike : isAliasToken { token with first, last } = isAliasToken token := rfl
      rw [takeAlias, takeAlias, alike]
      split
      · exact ⟨rfl, sameRest⟩
      · exact ⟨rfl, same⟩

/-- Whether a condition is complete does not depend on places. -/
theorem takeCondition?_of_sameLexemes {right : Token} {after : List Token}
    (same : others.map Token.toLexeme = tokens.map Token.toLexeme) (first last : Nat)
    (complete : takeCondition? token tokens = some (right, after)) :
    ∃ firstRight lastRight more,
      takeCondition? { token with first, last } others =
        some ({ right with first := firstRight, last := lastRight }, more) ∧
      more.map Token.toLexeme = after.map Token.toLexeme := by
  obtain ⟨mark, rfl, equals, leftField, rightField⟩ := takeCondition?_eq_some.mp complete
  obtain ⟨firstMark, lastMark, more, rfl, sameRest⟩ := exists_cons_of_sameLexemes same
  obtain ⟨firstRight, lastRight, more, rfl, sameAfter⟩ := exists_cons_of_sameLexemes sameRest
  exact ⟨firstRight, lastRight, more,
    takeCondition?_eq_some.mpr ⟨_, rfl, equals, leftField, rightField⟩, sameAfter⟩

/-- A condition that is not complete is so wherever its tokens are. -/
theorem incomplete_of_sameLexemes (same : others.map Token.toLexeme = tokens.map Token.toLexeme)
    (first last : Nat) (incomplete : takeCondition? token tokens = none) :
    takeCondition? { token with first, last } others = none := by
  cases complete : takeCondition? { token with first, last } others with
  | none => rfl
  | some condition =>
      obtain ⟨_, _, _, completeToo, _⟩ :=
        takeCondition?_of_sameLexemes same.symm token.first token.last complete
      exact nomatch completeToo.symm.trans incomplete

/-- **The entries of a table clause are the same wherever its tokens are.** -/
theorem tableEntries_of_sameLexemes (state : TableState)
    (same : others.map Token.toLexeme = tokens.map Token.toLexeme) :
    tableEntries state others = tableEntries state tokens := by
  fun_induction tableEntries state tokens generalizing others with
  | case1 state =>
      rw [List.map_nil, List.map_eq_nil_iff] at same
      rw [same, tableEntries]
  | case2 state token rest separator ih =>
      obtain ⟨first, last, more, rfl, sameRest⟩ := exists_cons_of_sameLexemes same
      rw [@tableEntries_separator { token with first, last } _ separator, ih sameRest]
  | case3 state token rest notSeparator on ih =>
      obtain ⟨first, last, more, rfl, sameRest⟩ := exists_cons_of_sameLexemes same
      rw [@tableEntries_on { token with first, last } _ on, ih sameRest]
  | case4 token rest notSeparator notOn _ ih =>
      obtain ⟨first, last, more, rfl, sameRest⟩ := exists_cons_of_sameLexemes same
      obtain ⟨sameAlias, sameAfter⟩ := takeAlias_of_sameLexemes sameRest
      have plain := Token.plain_of_tests notSeparator notOn
      rw [@tableEntries_entity { token with first, last } _ plain, sameAlias, ih sameAfter]
  | case5 token rest notSeparator notOn incomplete =>
      obtain ⟨first, last, more, rfl, sameRest⟩ := exists_cons_of_sameLexemes same
      have plain := Token.plain_of_tests notSeparator notOn
      exact @tableEntries_incomplete { token with first, last } _ plain
        (incomplete_of_sameLexemes sameRest first last incomplete)
  | case6 token rest notSeparator notOn right after complete _ ih =>
      obtain ⟨first, last, more, rfl, sameRest⟩ := exists_cons_of_sameLexemes same
      have plain := Token.plain_of_tests notSeparator notOn
      obtain ⟨_, _, _, completeToo, sameAfter⟩ :=
        takeCondition?_of_sameLexemes sameRest first last complete
      rw [@tableEntries_condition { token with first, last } _ plain _ _ completeToo, ih sameAfter]
  | case7 token rest notSeparator notOn ih =>
      obtain ⟨first, last, more, rfl, sameRest⟩ := exists_cons_of_sameLexemes same
      have plain := Token.plain_of_tests notSeparator notOn
      rw [@tableEntries_any { token with first, last } _ plain, ih sameRest]

namespace Schema

/-- **The tokens of a clause stand for the same wherever they are.** -/
theorem tokens_of_sameLexemes (schema : Schema) (entityEnd : EntityEnd)
    (same : others.map Token.toLexeme = tokens.map Token.toLexeme) (aliases : Aliases) :
    schema.tokens entityEnd others aliases = schema.tokens entityEnd tokens aliases := by
  induction tokens generalizing others aliases with
  | nil =>
      rw [List.map_nil, List.map_eq_nil_iff] at same
      rw [same]
  | cons token rest ih =>
      obtain ⟨first, last, more, rfl, sameRest⟩ := exists_cons_of_sameLexemes same
      have alike : schema.token entityEnd { token with first, last } aliases =
          schema.token entityEnd token aliases := rfl
      unfold tokens
      rw [alike]
      congr 1
      funext ⟨expr, later⟩
      dsimp only
      rw [ih sameRest]

/-- **The parts of a table clause are the same wherever its tokens are.** -/
theorem tableItems_of_sameLexemes (schema : Schema) (state : TableState) (aliases : Aliases)
    (same : others.map Token.toLexeme = tokens.map Token.toLexeme) :
    schema.tableItems state others aliases = schema.tableItems state tokens aliases := by
  fun_induction Registry.tableItems schema state tokens aliases generalizing others with
  | case1 state aliases =>
      rw [List.map_nil, List.map_eq_nil_iff] at same
      rw [same, tableItems.eq_def]
  | case2 state aliases token rest separator ih =>
      obtain ⟨first, last, more, rfl, sameRest⟩ := exists_cons_of_sameLexemes same
      rw [@TableScan.tableItems_separator _ { token with first, last } _ _ separator, ih sameRest]
      rfl
  | case3 state aliases token rest notSeparator on ih =>
      obtain ⟨first, last, more, rfl, sameRest⟩ := exists_cons_of_sameLexemes same
      rw [@TableScan.tableItems_on _ { token with first, last } _ _ on, ih sameRest]
      rfl
  | case4 aliases token rest notSeparator notOn _ ih =>
      obtain ⟨first, last, more, rfl, sameRest⟩ := exists_cons_of_sameLexemes same
      obtain ⟨sameAlias, sameAfter⟩ := takeAlias_of_sameLexemes sameRest
      have plain := Token.plain_of_tests notSeparator notOn
      rw [@TableScan.tableItems_entity _ { token with first, last } _ _ plain, sameAlias]
      congr 1
      funext entity
      rw [ih _ sameAfter]
      rfl
  | case5 aliases token rest notSeparator notOn incomplete =>
      obtain ⟨first, last, more, rfl, sameRest⟩ := exists_cons_of_sameLexemes same
      have plain := Token.plain_of_tests notSeparator notOn
      exact @TableScan.tableItems_incomplete _ { token with first, last } _ _ plain
        (incomplete_of_sameLexemes sameRest first last incomplete)
  | case6 aliases token rest notSeparator notOn right after complete _ ih =>
      obtain ⟨first, last, more, rfl, sameRest⟩ := exists_cons_of_sameLexemes same
      have plain := Token.plain_of_tests notSeparator notOn
      obtain ⟨_, _, _, completeToo, sameAfter⟩ :=
        takeCondition?_of_sameLexemes sameRest first last complete
      rw [@TableScan.tableItems_condition _ { token with first, last } _ _ plain _ _ completeToo]
      congr 1
      funext left
      congr 1
      funext other
      rw [ih _ sameAfter]
      rfl
  | case7 aliases token rest notSeparator notOn ih =>
      obtain ⟨first, last, more, rfl, sameRest⟩ := exists_cons_of_sameLexemes same
      have plain := Token.plain_of_tests notSeparator notOn
      rw [@TableScan.tableItems_any _ { token with first, last } _ _ plain]
      congr 1
      funext one
      rw [ih _ sameRest]
      rfl

end Schema

end EntityQuery

import EntityQuery.Proofs.Resolution.TableClause

/-!
# The scanner of table clauses

A table clause is read in steps (`TableScan.Step`), each of which takes one to three tokens. Where
the clause does not end there is a step, or a reason why there is none (`TableScan.progress`), and
every step shortens the clause. The parts of a table clause are what its steps give one after
another (`TableScan.outcome_of_step`), so the clause is accepted if the steps lead to its end
(`ok_iff_runs`), and otherwise it fails with the reason for which they stop (`error_iff_runs`).

A connective, that is a comma, `join` or `on`, is no alias. So a clause that is accepted is read in
the same way where a connective follows (`TableScan.Runs.append`), and what is read before a place
is accepted by itself (`TableScan.Runs.cut`).
-/

set_option autoImplicit false

namespace EntityQuery

open Query (Token)

namespace Query.Token

/-- A comma or the word `join`, after which an entity is expected. -/
def isSeparator (token : Token) : Bool :=
  token.isMark "," || token.isKeyword "join"

/-- The word `on`, after which a condition is expected. -/
def isOn (token : Token) : Bool :=
  token.isKeyword "on"

/-- A token that says what is expected after it, whatever was expected in its own place. -/
def isConnective (token : Token) : Bool :=
  token.isSeparator || token.isOn

theorem isConnective_of_isSeparator {token : Token} (separator : token.isSeparator = true) :
    token.isConnective = true := by
  rw [isConnective, separator, Bool.true_or]

theorem isConnective_of_isOn {token : Token} (on : token.isOn = true) :
    token.isConnective = true := by
  rw [isConnective, on, Bool.or_true]

theorem not_isSeparator_of_plain {token : Token} (plain : token.isConnective = false) :
    token.isSeparator = false :=
  (Bool.or_eq_false_iff.mp plain).1

theorem not_isOn_of_plain {token : Token} (plain : token.isConnective = false) :
    token.isOn = false :=
  (Bool.or_eq_false_iff.mp plain).2

/-- Both tests that the scanner makes first fail for a token that is no connective. -/
theorem tests_of_plain {token : Token} (plain : token.isConnective = false) :
    (token.isMark "," || token.isKeyword "join") = false ∧ token.isKeyword "on" = false :=
  ⟨not_isSeparator_of_plain plain, not_isOn_of_plain plain⟩

/-- A token that fails both tests is no connective. -/
theorem plain_of_tests {token : Token}
    (notSeparator : ¬(token.isMark "," || token.isKeyword "join") = true)
    (notOn : ¬token.isKeyword "on" = true) : token.isConnective = false := by
  rw [isConnective, isSeparator, isOn, Bool.eq_false_iff.mpr notSeparator,
    Bool.eq_false_iff.mpr notOn, Bool.or_false]

/-- The word `on` is no separator. -/
theorem not_isSeparator_of_isOn {token : Token} (on : token.isOn = true) :
    token.isSeparator = false := by
  simp only [isOn, isKeyword, Bool.and_eq_true, beq_iff_eq, Text.sameIgnoringCase] at on
  obtain ⟨word, letters⟩ := on
  simp only [isSeparator, isMark, isKeyword, Text.sameIgnoringCase, word, letters]
  rfl

end Query.Token

/-- An alias is no connective. -/
theorem plain_of_isAliasToken {token : Token} (isAlias : isAliasToken token = true) :
    token.isConnective = false := by
  simp only [isAliasToken, joinWords, Bool.and_eq_true, beq_iff_eq, Bool.not_eq_true',
    List.any_cons, Bool.or_eq_false_iff] at isAlias
  obtain ⟨word, _, _, _, _, _, _, join, on, _⟩ := isAlias
  simp only [Token.isConnective, Token.isSeparator, Token.isOn, Token.isMark, Token.isKeyword, word,
    join, on]
  rfl

/-- An equality sign is no connective. -/
theorem plain_of_equals {token : Token} (equals : token.isMark "=" = true) :
    token.isConnective = false := by
  simp only [Token.isMark, Bool.and_eq_true, beq_iff_eq] at equals
  obtain ⟨mark, sign⟩ := equals
  simp only [Token.isConnective, Token.isSeparator, Token.isOn, Token.isMark,
    Token.isKeyword, mark, sign]
  decide

/-- A condition is a field, an equality sign and another field. -/
theorem takeCondition?_eq_some {left right : Token} {tokens after : List Token} :
    takeCondition? left tokens = some (right, after) ↔
      ∃ mark, tokens = mark :: right :: after ∧ mark.isMark "=" = true ∧
        isFieldToken left = true ∧ isFieldToken right = true := by
  unfold takeCondition?
  split
  · next mark other rest =>
    split
    · next complete =>
      simp only [Bool.and_eq_true, and_assoc] at complete
      simp only [Option.some.injEq, Prod.mk.injEq, List.cons.injEq]
      constructor
      · rintro ⟨rfl, rfl⟩
        exact ⟨mark, ⟨rfl, rfl, rfl⟩, complete⟩
      · rintro ⟨_, ⟨rfl, rfl, rfl⟩, _⟩
        exact ⟨rfl, rfl⟩
    · next incomplete =>
      simp only [Bool.and_eq_true, and_assoc] at incomplete
      simp only [reduceCtorEq, false_iff, not_exists, not_and]
      rintro _ same equals leftField rightField
      cases same
      exact incomplete ⟨equals, leftField, rightField⟩
  · next short =>
    simp only [reduceCtorEq, false_iff, not_exists, not_and]
    rintro mark same
    exact absurd same (short mark right after)

/-- A table clause in the course of its reading. -/
structure TableScan where
  state : TableState
  tokens : List Token
  aliases : Aliases

namespace TableScan

variable {registry : Registry}

/-- One step in the reading of a table clause. -/
inductive Step (registry : Registry) : TableScan → TableScan → Prop where
  | separator {state : TableState} {token : Token} {rest : List Token} {aliases : Aliases}
      (separator : token.isSeparator = true) :
      Step registry ⟨state, token :: rest, aliases⟩ ⟨.entity, rest, aliases⟩
  | on {state : TableState} {token : Token} {rest : List Token} {aliases : Aliases}
      (on : token.isOn = true) :
      Step registry ⟨state, token :: rest, aliases⟩ ⟨.condition, rest, aliases⟩
  | entity {token : Token} {rest : List Token} {aliases : Aliases} {entity : Entity}
      (plain : token.isConnective = false) (known : registry.entity token.lexeme = .ok entity) :
      Step registry ⟨.entity, token :: rest, aliases⟩
        ⟨.any, (takeAlias rest).2, (aliases.bind entity.name (takeAlias rest).1).2⟩
  | condition {token right : Token} {rest after : List Token} {aliases middle later : Aliases}
      {leftColumn rightColumn : Sql.Expr} (plain : token.isConnective = false)
      (complete : takeCondition? token rest = some (right, after))
      (left_ok : registry.field .referencingKey token.lexeme aliases = .ok (leftColumn, middle))
      (right_ok : registry.field .referencingKey right.lexeme middle = .ok (rightColumn, later)) :
      Step registry ⟨.condition, token :: rest, aliases⟩ ⟨.any, after, later⟩
  | other {token : Token} {rest : List Token} {aliases later : Aliases} {expr : Sql.Expr}
      (plain : token.isConnective = false)
      (resolved : registry.token .referencingKey token aliases = .ok (expr, later)) :
      Step registry ⟨.any, token :: rest, aliases⟩ ⟨.any, rest, later⟩

/-- Why there is no step. -/
inductive Blocked (registry : Registry) : TableScan → MappingError → Prop where
  | entity {token : Token} {rest : List Token} {aliases : Aliases} {problem : MappingError}
      (plain : token.isConnective = false)
      (unknown : registry.entity token.lexeme = .error problem) :
      Blocked registry ⟨.entity, token :: rest, aliases⟩ problem
  | incomplete {token : Token} {rest : List Token} {aliases : Aliases}
      (plain : token.isConnective = false) (incomplete : takeCondition? token rest = none) :
      Blocked registry ⟨.condition, token :: rest, aliases⟩ (malformedCondition token)
  | left {token right : Token} {rest after : List Token} {aliases : Aliases}
      {problem : MappingError}
      (plain : token.isConnective = false)
      (complete : takeCondition? token rest = some (right, after))
      (fails : registry.field .referencingKey token.lexeme aliases = .error problem) :
      Blocked registry ⟨.condition, token :: rest, aliases⟩ problem
  | right {token right : Token} {rest after : List Token} {aliases middle : Aliases}
      {leftColumn : Sql.Expr} {problem : MappingError} (plain : token.isConnective = false)
      (complete : takeCondition? token rest = some (right, after))
      (left_ok : registry.field .referencingKey token.lexeme aliases = .ok (leftColumn, middle))
      (fails : registry.field .referencingKey right.lexeme middle = .error problem) :
      Blocked registry ⟨.condition, token :: rest, aliases⟩ problem
  | other {token : Token} {rest : List Token} {aliases : Aliases} {problem : MappingError}
      (plain : token.isConnective = false)
      (fails : registry.token .referencingKey token aliases = .error problem) :
      Blocked registry ⟨.any, token :: rest, aliases⟩ problem

/-- Steps one after another. -/
abbrev Runs (registry : Registry) : TableScan → TableScan → Prop :=
  Relation.ReflTransGen (Step registry)

/-- A step takes a token at least. -/
theorem Step.shorter {scan next : TableScan} (step : Step registry scan next) :
    next.tokens.length < scan.tokens.length := by
  cases step with
  | separator | on | other => exact Nat.lt_succ_self _
  | entity => exact Nat.lt_succ_of_le (length_takeAlias _)
  | condition _ complete => exact Nat.lt_succ_of_lt (length_takeCondition? complete)

/-- **Before the end of a clause there is a step, or a reason why there is none.** -/
theorem progress (registry : Registry) (state : TableState) (token : Token) (rest : List Token)
    (aliases : Aliases) :
    (∃ next, Step registry ⟨state, token :: rest, aliases⟩ next) ∨
      ∃ problem, Blocked registry ⟨state, token :: rest, aliases⟩ problem := by
  cases separator : token.isSeparator with
  | true => exact .inl ⟨_, .separator separator⟩
  | false =>
  cases on : token.isOn with
  | true => exact .inl ⟨_, .on on⟩
  | false =>
  have plain : token.isConnective = false := by
    rw [Token.isConnective, separator, on, Bool.or_false]
  cases state with
  | entity =>
      cases known : registry.entity token.lexeme with
      | ok entity => exact .inl ⟨_, .entity plain known⟩
      | error problem => exact .inr ⟨problem, .entity plain known⟩
  | condition =>
      cases complete : takeCondition? token rest with
      | none => exact .inr ⟨_, .incomplete plain complete⟩
      | some condition =>
          cases left_ok : registry.field .referencingKey token.lexeme aliases with
          | error problem => exact .inr ⟨problem, .left plain complete left_ok⟩
          | ok left =>
              cases right_ok : registry.field .referencingKey condition.1.lexeme left.2 with
              | error problem => exact .inr ⟨problem, .right plain complete left_ok right_ok⟩
              | ok right => exact .inl ⟨_, .condition plain complete left_ok right_ok⟩
  | any =>
      cases resolved : registry.token .referencingKey token aliases with
      | ok result => exact .inl ⟨_, .other plain resolved⟩
      | error problem => exact .inr ⟨problem, .other plain resolved⟩

/-- The steps from a place lead to the end of the clause or to a place without a step. -/
theorem exists_last (registry : Registry) (scan : TableScan) :
    ∃ last, Runs registry scan last ∧
      (last.tokens = [] ∨ ∃ problem, Blocked registry last problem) := by
  induction size : scan.tokens.length using Nat.strongRecOn generalizing scan with
  | ind length ih =>
      obtain ⟨state, tokens, aliases⟩ := scan
      cases tokens with
      | nil => exact ⟨_, .refl, .inl rfl⟩
      | cons token rest =>
          rcases progress registry state token rest aliases with ⟨next, step⟩ | blocked
          · obtain ⟨last, others, ends⟩ := ih _ (size ▸ step.shorter) next rfl
            exact ⟨last, .head step others, ends⟩
          · exact ⟨_, .refl, .inr blocked⟩

/-! ## The parts of a clause -/

/-- A part in front of those that follow. -/
def inFront (item : Sql.TableItem) (others : Except MappingError (List Sql.TableItem × Aliases)) :
    Except MappingError (List Sql.TableItem × Aliases) :=
  others >>= fun result => pure (item :: result.1, result.2)

/-- The parts of what is left of a clause. -/
def outcome (registry : Registry) (scan : TableScan) :
    Except MappingError (List Sql.TableItem × Aliases) :=
  registry.tableItems scan.state scan.tokens scan.aliases

section

variable {token : Token} {rest : List Token} {aliases : Aliases}

theorem tableItems_separator (separator : token.isSeparator = true) (state : TableState) :
    registry.tableItems state (token :: rest) aliases =
      inFront (.token (.raw token.lexeme)) (registry.tableItems .entity rest aliases) := by
  have whole : (token.isMark "," || token.isKeyword "join") = true := separator
  rw [Registry.tableItems.eq_def]
  simp only [whole, if_true]
  rfl

theorem tableItems_on (on : token.isOn = true) (state : TableState) :
    registry.tableItems state (token :: rest) aliases =
      inFront (.token (.raw token.lexeme)) (registry.tableItems .condition rest aliases) := by
  have whole : (token.isMark "," || token.isKeyword "join") = false :=
    Token.not_isSeparator_of_isOn on
  have keyword : token.isKeyword "on" = true := on
  rw [Registry.tableItems.eq_def]
  simp only [whole, Bool.false_eq_true, if_false, keyword, if_true]
  rfl

theorem tableItems_entity (plain : token.isConnective = false) :
    registry.tableItems .entity (token :: rest) aliases =
      registry.entity token.lexeme >>= fun entity =>
        inFront (.table ⟨entity.table, aliases.next⟩)
          (registry.tableItems .any (takeAlias rest).2
            (aliases.bind entity.name (takeAlias rest).1).2) := by
  obtain ⟨notSeparator, notOn⟩ := Token.tests_of_plain plain
  rw [Registry.tableItems]
  simp only [notSeparator, notOn, Bool.false_eq_true, if_false]
  rfl

theorem tableItems_incomplete (plain : token.isConnective = false)
    (incomplete : takeCondition? token rest = none) :
    registry.tableItems .condition (token :: rest) aliases = .error (malformedCondition token) := by
  obtain ⟨notSeparator, notOn⟩ := Token.tests_of_plain plain
  rw [Registry.tableItems]
  simp only [notSeparator, notOn, Bool.false_eq_true, if_false]
  split
  · rfl
  · next complete =>
    rw [incomplete] at complete
    cases complete

theorem tableItems_condition (plain : token.isConnective = false) {right : Token}
    {after : List Token} (complete : takeCondition? token rest = some (right, after)) :
    registry.tableItems .condition (token :: rest) aliases =
      registry.field .referencingKey token.lexeme aliases >>= fun left =>
        registry.field .referencingKey right.lexeme left.2 >>= fun other =>
          inFront (.token (.equation left.1 other.1)) (registry.tableItems .any after other.2) := by
  obtain ⟨notSeparator, notOn⟩ := Token.tests_of_plain plain
  rw [Registry.tableItems]
  simp only [notSeparator, notOn, Bool.false_eq_true, if_false]
  split
  · next incomplete =>
    rw [incomplete] at complete
    cases complete
  · next same =>
    rw [same] at complete
    cases complete
    rfl

theorem tableItems_any (plain : token.isConnective = false) :
    registry.tableItems .any (token :: rest) aliases =
      registry.token .referencingKey token aliases >>= fun one =>
        inFront (.token one.1) (registry.tableItems .any rest one.2) := by
  obtain ⟨notSeparator, notOn⟩ := Token.tests_of_plain plain
  rw [Registry.tableItems]
  simp only [notSeparator, notOn, Bool.false_eq_true, if_false]
  rfl

end

/-- **A step gives one part, in front of those that the rest gives.** -/
theorem outcome_of_step {scan next : TableScan} (step : Step registry scan next) :
    ∃ item, scan.outcome registry = inFront item (next.outcome registry) := by
  cases step with
  | separator separator => exact ⟨_, tableItems_separator separator _⟩
  | on on => exact ⟨_, tableItems_on on _⟩
  | entity plain known => exact ⟨_, (tableItems_entity plain).trans (bind_of_ok known)⟩
  | condition plain complete left_ok right_ok =>
      exact ⟨_, (tableItems_condition plain complete).trans
        ((bind_of_ok left_ok).trans (bind_of_ok right_ok))⟩
  | other plain resolved => exact ⟨_, (tableItems_any plain).trans (bind_of_ok resolved)⟩

/-- Without a step the clause fails with the reason. -/
theorem outcome_of_blocked {scan : TableScan} {problem : MappingError}
    (blocked : Blocked registry scan problem) : scan.outcome registry = .error problem := by
  cases blocked with
  | entity plain unknown => exact (tableItems_entity plain).trans (bind_of_error unknown)
  | incomplete plain incomplete => exact tableItems_incomplete plain incomplete
  | left plain complete fails =>
      exact (tableItems_condition plain complete).trans (bind_of_error fails)
  | right plain complete left_ok fails =>
      exact (tableItems_condition plain complete).trans
        ((bind_of_ok left_ok).trans (bind_of_error fails))
  | other plain fails => exact (tableItems_any plain).trans (bind_of_error fails)

/-- The outcome at the end of some steps is the outcome of the whole, with parts in front. -/
theorem outcome_of_runs {scan last : TableScan} (runs : Runs registry scan last) :
    (∀ result, last.outcome registry = .ok result →
      ∃ items, scan.outcome registry = .ok (items, result.2)) ∧
    (∀ problem, last.outcome registry = .error problem →
      scan.outcome registry = .error problem) := by
  induction runs using Relation.ReflTransGen.head_induction_on with
  | refl => exact ⟨fun result succeeds => ⟨result.1, succeeds⟩, fun _ fails => fails⟩
  | head step _ ih =>
      obtain ⟨item, same⟩ := outcome_of_step step
      refine ⟨fun result succeeds => ?_, fun problem fails => ?_⟩
      · obtain ⟨items, others⟩ := ih.1 result succeeds
        exact ⟨item :: items, same.trans (bind_of_ok others)⟩
      · exact same.trans (bind_of_error (ih.2 problem fails))

/-- At the end of a clause there are no more parts. -/
theorem outcome_nil (registry : Registry) (state : TableState) (aliases : Aliases) :
    outcome registry ⟨state, [], aliases⟩ = .ok ([], aliases) := by
  rw [outcome, Registry.tableItems.eq_def]

variable {state : TableState} {tokens : List Token} {aliases : Aliases}

/-- **A clause is accepted if and only if the steps lead to its end.** -/
theorem ok_iff_runs {later : Aliases} :
    (∃ items, registry.tableItems state tokens aliases = .ok (items, later)) ↔
      ∃ final, Runs registry ⟨state, tokens, aliases⟩ ⟨final, [], later⟩ := by
  constructor
  · rintro ⟨items, accepted⟩
    obtain ⟨⟨final, left, last⟩, runs, ending | ⟨problem, blocked⟩⟩ :=
      exists_last registry ⟨state, tokens, aliases⟩
    · cases ending
      obtain ⟨others, same⟩ := (outcome_of_runs runs).1 _ (outcome_nil registry final last)
      cases accepted.symm.trans same
      exact ⟨final, runs⟩
    · have fails := (outcome_of_runs runs).2 problem (outcome_of_blocked blocked)
      cases accepted.symm.trans fails
  · rintro ⟨final, runs⟩
    exact (outcome_of_runs runs).1 _ (outcome_nil registry final later)

/-- **A clause fails if and only if the steps lead to a place without one, for the reason there.**
-/
theorem error_iff_runs {problem : MappingError} :
    registry.tableItems state tokens aliases = .error problem ↔
      ∃ last, Runs registry ⟨state, tokens, aliases⟩ last ∧ Blocked registry last problem := by
  constructor
  · intro fails
    obtain ⟨⟨final, left, later⟩, runs, ending | ⟨reason, blocked⟩⟩ :=
      exists_last registry ⟨state, tokens, aliases⟩
    · cases ending
      obtain ⟨items, accepted⟩ := ok_iff_runs.mpr ⟨final, runs⟩
      cases fails.symm.trans accepted
    · have same := (outcome_of_runs runs).2 reason (outcome_of_blocked blocked)
      cases fails.symm.trans same
      exact ⟨_, runs, blocked⟩
  · rintro ⟨last, runs, blocked⟩
    exact (outcome_of_runs runs).2 problem (outcome_of_blocked blocked)

/-! ## What follows a connective -/

/-- The alias after an entity is the same where a connective follows. -/
theorem takeAlias_append {tokens more : List Token} {connective : Token}
    (isConnective : connective.isConnective = true) :
    takeAlias (tokens ++ connective :: more) =
      ((takeAlias tokens).1, (takeAlias tokens).2 ++ connective :: more) := by
  cases tokens with
  | nil =>
      have notAlias : isAliasToken connective = false := by
        by_contra isAlias
        rw [Bool.not_eq_false] at isAlias
        rw [plain_of_isAliasToken isAlias] at isConnective
        cases isConnective
      simp [takeAlias, notAlias]
  | cons token rest =>
      rw [List.cons_append, takeAlias, takeAlias]
      split <;> rfl

/-- A condition is the same whatever follows it. -/
theorem takeCondition?_append {left right : Token} {tokens after : List Token}
    (complete : takeCondition? left tokens = some (right, after)) (more : List Token) :
    takeCondition? left (tokens ++ more) = some (right, after ++ more) := by
  obtain ⟨mark, rfl, sides⟩ := takeCondition?_eq_some.mp complete
  exact takeCondition?_eq_some.mpr ⟨mark, rfl, sides⟩

/-- The alias after an entity is the same in the part of the clause before a later place. -/
theorem takeAlias_cut {tokens before after : List Token}
    (same : (takeAlias tokens).2 = before ++ after) :
    ∃ taken, tokens = taken ++ after ∧ takeAlias taken = ((takeAlias tokens).1, before) := by
  cases tokens with
  | nil =>
      obtain ⟨rfl, rfl⟩ := List.append_eq_nil_iff.mp same.symm
      exact ⟨[], rfl, rfl⟩
  | cons token rest =>
      rw [takeAlias] at same
      split at same
      · next isAlias =>
        refine ⟨token :: before, congrArg _ same, ?_⟩
        rw [takeAlias, takeAlias, if_pos isAlias, if_pos isAlias]
      · next notAlias =>
        refine ⟨before, same, ?_⟩
        rw [takeAlias, if_neg notAlias]
        cases before with
        | nil => rfl
        | cons first others =>
            obtain ⟨rfl, rfl⟩ := List.cons.inj same
            rw [takeAlias, if_neg notAlias]

/-- A step is the same where a connective follows what it leaves. -/
theorem Step.append {scan next : TableScan} (step : Step registry scan next) {connective : Token}
    (isConnective : connective.isConnective = true) (more : List Token) :
    Step registry ⟨scan.state, scan.tokens ++ connective :: more, scan.aliases⟩
      ⟨next.state, next.tokens ++ connective :: more, next.aliases⟩ := by
  cases step with
  | separator separator => exact .separator separator
  | on on => exact .on on
  | @entity token rest aliases entity plain known =>
      have whole : Step registry ⟨.entity, token :: (rest ++ connective :: more), aliases⟩ _ :=
        .entity plain known
      rw [takeAlias_append isConnective] at whole
      exact whole
  | condition plain complete left_ok right_ok =>
      exact .condition plain (takeCondition?_append complete _) left_ok right_ok
  | other plain resolved => exact .other plain resolved

/-- A step is the same in the part of the clause before a later place. -/
theorem Step.cut {scan next : TableScan} (step : Step registry scan next)
    {before after : List Token} (same : next.tokens = before ++ after) :
    ∃ taken, scan.tokens = taken ++ after ∧
      Step registry ⟨scan.state, taken, scan.aliases⟩ ⟨next.state, before, next.aliases⟩ := by
  cases step with
  | @separator _ token _ _ separator =>
      exact ⟨token :: before, congrArg _ same, .separator separator⟩
  | @on _ token _ _ on => exact ⟨token :: before, congrArg _ same, .on on⟩
  | @entity token rest aliases entity plain known =>
      obtain ⟨taken, whole, cut⟩ := takeAlias_cut same
      have step : Step registry ⟨.entity, token :: taken, aliases⟩ _ := .entity plain known
      rw [cut] at step
      exact ⟨token :: taken, congrArg _ whole, step⟩
  | @condition token right _ _ _ _ _ _ _ plain complete left_ok right_ok =>
      obtain ⟨mark, rfl, sides⟩ := takeCondition?_eq_some.mp complete
      cases same
      have cut : takeCondition? token (mark :: right :: before) = some (right, before) :=
        takeCondition?_eq_some.mpr ⟨mark, rfl, sides⟩
      exact ⟨token :: mark :: right :: before, rfl, .condition plain cut left_ok right_ok⟩
  | @other token _ _ _ _ plain resolved =>
      exact ⟨token :: before, congrArg _ same, .other plain resolved⟩

/-- **A clause is read in the same way where a connective follows it.** -/
theorem Runs.append {scan : TableScan} {state : TableState} {aliases : Aliases}
    (runs : Runs registry scan ⟨state, [], aliases⟩) {connective : Token}
    (isConnective : connective.isConnective = true) (more : List Token) :
    Runs registry ⟨scan.state, scan.tokens ++ connective :: more, scan.aliases⟩
      ⟨state, connective :: more, aliases⟩ := by
  induction runs using Relation.ReflTransGen.head_induction_on with
  | refl => exact .refl
  | head step _ ih => exact .head (step.append isConnective more) ih

/-- **What is read before a place is accepted by itself.** -/
theorem Runs.cut {scan last : TableScan} (runs : Runs registry scan last) :
    ∃ before, scan.tokens = before ++ last.tokens ∧
      Runs registry ⟨scan.state, before, scan.aliases⟩ ⟨last.state, [], last.aliases⟩ := by
  induction runs using Relation.ReflTransGen.head_induction_on with
  | refl => exact ⟨[], rfl, .refl⟩
  | head step _ ih =>
      obtain ⟨before, same, others⟩ := ih
      obtain ⟨taken, whole, first⟩ := step.cut same
      exact ⟨taken, whole, .head first others⟩

end TableScan

end EntityQuery

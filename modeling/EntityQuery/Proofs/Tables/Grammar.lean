import EntityQuery.Proofs.Tables.Scan
import EntityQuery.Proofs.Sample

/-!
# The grammar of table clauses

A table clause names an entity at its start, after every comma and after every `join`, and it has a
complete condition after every `on`. The scanner checks what stands in such a place, unless that is
the end of the clause or another connective, which changes what is expected
(`TableScan.Runs.grammatical`). Hence a clause that is accepted follows the grammar if and only if
no place for an entity or a condition is left empty in this way (`tableClause_grammatical_iff`); a
clause without an empty place is accepted only if it follows the grammar.

A condition that is begun after an `on` and not completed is the one thing that is reported as a
malformed join.
-/

set_option autoImplicit false

namespace EntityQuery

open Query (Token)

/-! ## Places -/

/-- What follows each of the chosen tokens of a clause. -/
def following (chosen : Token → Bool) : List Token → List (List Token)
  | [] => []
  | token :: rest => if chosen token then rest :: following chosen rest else following chosen rest

/-- Where entities belong in what is left of a clause: at its start in the state that expects one,
and after every comma and every `join`. -/
def entityPlaces : TableState → List Token → List (List Token)
  | .entity, tokens => tokens :: following Token.isSeparator tokens
  | _, tokens => following Token.isSeparator tokens

/-- Where conditions belong in what is left of a clause: at its start in the state that expects one,
and after every `on`. -/
def conditionPlaces : TableState → List Token → List (List Token)
  | .condition, tokens => tokens :: following Token.isOn tokens
  | _, tokens => following Token.isOn tokens

/-- Whether a place has something other than a connective. -/
def isFilled : List Token → Bool
  | [] => false
  | token :: _ => !token.isConnective

/-- No place is empty, and no right side of a condition is a connective. -/
def Filled (state : TableState) (tokens : List Token) : Prop :=
  (∀ place ∈ entityPlaces state tokens, isFilled place = true) ∧
    ∀ place ∈ conditionPlaces state tokens,
      isFilled place = true ∧ ∀ right ∈ place[2]?, right.isConnective = false

instance (state : TableState) (tokens : List Token) : Decidable (Filled state tokens) :=
  inferInstanceAs (Decidable (_ ∧ _))

/-! ## The grammar -/

/-- The clause names a registered entity in a place, and the binding is made for it. -/
inductive Registry.Names (registry : Registry) (later : Aliases) : List Token → Binding → Prop where
  | entity {token : Token} {rest : List Token} {entity : Entity} {alias_ : String}
      (plain : token.isConnective = false) (registered : registry.lookup token.lexeme = some entity)
      (recorded : (alias_, ⟨token.lexeme, none⟩) ∈ later.entries) :
      Names registry later (token :: rest)
        ⟨(takeAlias rest).1.getD token.lexeme, token.lexeme, alias_⟩

/-- A place has a field, an equality sign and a field. -/
def HasCondition (place : List Token) : Prop :=
  ∃ left mark right after, place = left :: mark :: right :: after ∧ mark.isMark "=" = true ∧
    isFieldToken left = true ∧ isFieldToken right = true ∧
      left.isConnective = false ∧ right.isConnective = false

/-- The clause names registered entities in the places for entities, one for each new binding and in
the same order, and it has conditions in the places for conditions. -/
structure Registry.Grammatical (registry : Registry) (state : TableState) (tokens : List Token)
    (aliases later : Aliases) : Prop where
  entities : ∃ added, later.bindings = added.reverse ++ aliases.bindings ∧
    List.Forall₂ (registry.Names later) (entityPlaces state tokens) added
  conditions : ∀ place ∈ conditionPlaces state tokens, HasCondition place

/-- A clause that follows the grammar has no empty place. -/
theorem Registry.Grammatical.filled {registry : Registry} {state : TableState} {tokens : List Token}
    {aliases later : Aliases} (grammatical : registry.Grammatical state tokens aliases later) :
    Filled state tokens := by
  refine ⟨fun place member => ?_, fun place member => ?_⟩
  · obtain ⟨_, _, names⟩ := grammatical.entities
    obtain ⟨binding, _, named⟩ := Aliases.exists_related_of_mem names member
    cases named with
    | entity plain => rw [isFilled, plain, Bool.not_false]
  · obtain ⟨left, mark, right, after, rfl, _, _, _, leftPlain, rightPlain⟩ :=
      grammatical.conditions place member
    refine ⟨by rw [isFilled, leftPlain, Bool.not_false], fun other same => ?_⟩
    cases same
    exact rightPlain

/-- What keeps the written names makes no new bindings. -/
theorem Registry.Grammatical.of_keeps {registry : Registry} {state : TableState}
    {tokens : List Token} {aliases middle later : Aliases}
    (grammatical : registry.Grammatical state tokens middle later) (keeps : aliases.Keeps middle) :
    registry.Grammatical state tokens aliases later :=
  ⟨keeps.bindings ▸ grammatical.entities, grammatical.conditions⟩

/-! ## Places in the course of the reading -/

section

variable {token : Token} {rest : List Token}

theorem following_of_chosen {chosen : Token → Bool} (isChosen : chosen token = true) :
    following chosen (token :: rest) = rest :: following chosen rest := by
  rw [following, if_pos isChosen]

theorem following_of_not {chosen : Token → Bool} (notChosen : chosen token = false) :
    following chosen (token :: rest) = following chosen rest := by
  rw [following, if_neg (Bool.eq_false_iff.mp notChosen)]

/-- The same places for entities and for conditions. -/
def SamePlaces (state : TableState) (tokens : List Token) (next : TableState)
    (others : List Token) : Prop :=
  entityPlaces state tokens = entityPlaces next others ∧
    conditionPlaces state tokens = conditionPlaces next others

theorem samePlaces_separator (separator : token.isSeparator = true) (rest : List Token) :
    SamePlaces .any (token :: rest) .entity rest := by
  have notOn : token.isOn = false := by
    by_contra on
    rw [Token.not_isSeparator_of_isOn (Bool.not_eq_false _ ▸ on)] at separator
    cases separator
  exact ⟨following_of_chosen separator, following_of_not notOn⟩

theorem samePlaces_on (on : token.isOn = true) (rest : List Token) :
    SamePlaces .any (token :: rest) .condition rest :=
  ⟨following_of_not (Token.not_isSeparator_of_isOn on), following_of_chosen on⟩

theorem samePlaces_plain (plain : token.isConnective = false) (rest : List Token) :
    SamePlaces .any (token :: rest) .any rest :=
  ⟨following_of_not (Token.not_isSeparator_of_plain plain),
    following_of_not (Token.not_isOn_of_plain plain)⟩

theorem SamePlaces.trans {first second third : TableState} {one two three : List Token}
    (before : SamePlaces first one second two) (after : SamePlaces second two third three) :
    SamePlaces first one third three :=
  ⟨before.1.trans after.1, before.2.trans after.2⟩

/-- There are no places in an alias. -/
theorem samePlaces_takeAlias (rest : List Token) :
    SamePlaces .any rest .any (takeAlias rest).2 := by
  cases rest with
  | nil => exact ⟨rfl, rfl⟩
  | cons token rest =>
      rw [takeAlias]
      split
      · next isAlias => exact samePlaces_plain (plain_of_isAliasToken isAlias) rest
      · exact ⟨rfl, rfl⟩

theorem SamePlaces.filled_iff {state next : TableState} {tokens others : List Token}
    (same : SamePlaces state tokens next others) : Filled state tokens ↔ Filled next others := by
  rw [Filled, Filled, same.1, same.2]

theorem SamePlaces.grammatical_iff {registry : Registry} {state next : TableState}
    {tokens others : List Token} (same : SamePlaces state tokens next others)
    {aliases later : Aliases} :
    registry.Grammatical state tokens aliases later ↔
      registry.Grammatical next others aliases later :=
  ⟨fun ⟨entities, conditions⟩ => ⟨same.1 ▸ entities, same.2 ▸ conditions⟩,
    fun ⟨entities, conditions⟩ => ⟨same.1.symm ▸ entities, same.2.symm ▸ conditions⟩⟩

/-- Without what is expected at its start there are fewer places in a clause. -/
theorem Filled.any {state : TableState} {tokens : List Token} (filled : Filled state tokens) :
    Filled .any tokens := by
  cases state with
  | entity => exact ⟨fun place member => filled.1 place (List.mem_cons_of_mem _ member), filled.2⟩
  | condition =>
      exact ⟨filled.1, fun place member => filled.2 place (List.mem_cons_of_mem _ member)⟩
  | any => exact filled

/-- Where a connective stands in a clause without empty places, nothing in particular is expected.
-/
theorem Filled.eq_any {state : TableState} (filled : Filled state (token :: rest))
    (connective : token.isConnective = true) : state = .any := by
  have empty : isFilled (token :: rest) = false := by rw [isFilled, connective, Bool.not_true]
  cases state with
  | any => rfl
  | entity => exact absurd (filled.1 _ (List.mem_cons_self ..)) (Bool.eq_false_iff.mp empty)
  | condition => exact absurd (filled.2 _ (List.mem_cons_self ..)).1 (Bool.eq_false_iff.mp empty)

end

namespace TableScan

variable {registry : Registry}

/-- A step extends the table. -/
theorem Step.extends {scan next : TableScan} (step : Step registry scan next) :
    scan.aliases.Extends next.aliases := by
  cases step with
  | separator | on => exact .refl _
  | entity => exact Aliases.extends_bind _ _ _
  | condition _ _ left_ok right_ok =>
      exact ((Registry.field_keeps left_ok).trans (Registry.field_keeps right_ok)).more
  | other _ resolved => exact (Registry.token_keeps resolved).more

theorem Runs.extends {scan last : TableScan} (runs : Runs registry scan last) :
    scan.aliases.Extends last.aliases := by
  induction runs with
  | refl => exact .refl _
  | tail _ step ih => exact ih.trans step.extends

/-- A step passes over no place, apart from the one that it fills. -/
theorem Step.samePlaces {scan next : TableScan} (step : Step registry scan next)
    (filled : Filled scan.state scan.tokens) :
    SamePlaces .any scan.tokens next.state next.tokens := by
  cases step with
  | separator separator => exact samePlaces_separator separator _
  | on on => exact samePlaces_on on _
  | entity plain => exact (samePlaces_plain plain _).trans (samePlaces_takeAlias _)
  | @condition token right _ after _ _ _ _ _ plain complete =>
      obtain ⟨mark, rfl, equals, _⟩ := takeCondition?_eq_some.mp complete
      have rightPlain := (filled.2 _ (List.mem_cons_self ..)).2 right rfl
      exact (samePlaces_plain plain _).trans
        ((samePlaces_plain (plain_of_equals equals) _).trans (samePlaces_plain rightPlain after))
  | other plain => exact samePlaces_plain plain _

/-- A clause without empty places has none after a step. -/
theorem Step.filled {scan next : TableScan} (step : Step registry scan next)
    (filled : Filled scan.state scan.tokens) : Filled next.state next.tokens :=
  (step.samePlaces filled).filled_iff.mp filled.any

/-- If a clause follows the grammar after a step, it does so before. -/
theorem Step.grammatical {scan next : TableScan} {later : Aliases} (step : Step registry scan next)
    (filled : Filled scan.state scan.tokens) (more : next.aliases.Extends later)
    (onwards : registry.Grammatical next.state next.tokens next.aliases later) :
    registry.Grammatical scan.state scan.tokens scan.aliases later := by
  have same := (step.samePlaces filled).grammatical_iff.mpr onwards
  cases step with
  | separator separator =>
      cases filled.eq_any (Token.isConnective_of_isSeparator separator)
      exact same
  | on on =>
      cases filled.eq_any (Token.isConnective_of_isOn on)
      exact same
  | @entity token rest aliases entity plain known =>
      obtain ⟨⟨added, bindings, names⟩, conditions⟩ := same
      have name := (Registry.registered_of_entity known).1
      have recorded : (aliases.next, ⟨token.lexeme, none⟩) ∈ later.entries := by
        refine Aliases.mem_entries_mono more ?_
        rw [Aliases.entries_bind, name]
        exact List.mem_append_right _ (List.mem_singleton_self _)
      refine ⟨⟨⟨(takeAlias rest).1.getD entity.name, entity.name, aliases.next⟩ :: added, ?_,
        .cons ?_ names⟩, conditions⟩
      · rw [bindings, List.reverse_cons, List.append_assoc]
        rfl
      · rw [name]
        exact .entity plain (Registry.lookup_of_entity known) recorded
  | @condition token right rest after _ _ _ _ _ plain complete left_ok right_ok =>
      obtain ⟨mark, rfl, equals, leftField, rightField⟩ := takeCondition?_eq_some.mp complete
      have rightPlain := (filled.2 _ (List.mem_cons_self ..)).2 right rfl
      obtain ⟨entities, conditions⟩ :=
        same.of_keeps ((Registry.field_keeps left_ok).trans (Registry.field_keeps right_ok))
      refine ⟨entities, List.forall_mem_cons.mpr ⟨?_, conditions⟩⟩
      exact ⟨token, mark, right, after, rfl, equals, leftField, rightField, plain, rightPlain⟩
  | other _ resolved => exact same.of_keeps (Registry.token_keeps resolved)

/-- **A clause that is read up to its end and has no empty place follows the grammar.** -/
theorem Runs.grammatical {scan : TableScan} {state : TableState} {later : Aliases}
    (runs : Runs registry scan ⟨state, [], later⟩) (filled : Filled scan.state scan.tokens) :
    registry.Grammatical scan.state scan.tokens scan.aliases later := by
  induction runs using Relation.ReflTransGen.head_induction_on with
  | refl =>
      cases state with
      | any => exact ⟨⟨[], rfl, .nil⟩, fun _ member => nomatch member⟩
      | entity => exact absurd (filled.1 [] (List.mem_cons_self ..)) Bool.false_ne_true
      | condition => exact absurd (filled.2 [] (List.mem_cons_self ..)).1 Bool.false_ne_true
  | head step others ih =>
      exact step.grammatical filled (Runs.extends others) (ih (step.filled filled))

/-- A condition is expected only after an `on`. -/
theorem Runs.exists_on {tokens rest : List Token} {aliases later : Aliases}
    (runs : Runs registry ⟨.entity, tokens, aliases⟩ ⟨.condition, rest, later⟩) :
    ∃ before on, tokens = before ++ on :: rest ∧ on.isOn = true ∧
      ∃ items, registry.tableItems .entity before aliases = .ok (items, later) := by
  rcases Relation.ReflTransGen.cases_tail runs with same | ⟨middle, before, step⟩
  · cases same
  · cases step with
    | @on state token _ _ on =>
        obtain ⟨consumed, whole, accepted⟩ := Runs.cut before
        exact ⟨consumed, token, whole, on, ok_iff_runs.mpr ⟨state, accepted⟩⟩

end TableScan

namespace Registry

variable {registry : Registry}

/-- The clause has an `on` after which a condition is begun and not completed, and what stands
before it is accepted by itself. -/
def BreaksOff (registry : Registry) (tokens : List Token) (aliases : Aliases)
    (problem : MappingError) : Prop :=
  ∃ before on token rest, tokens = before ++ on :: token :: rest ∧
    (∃ items later, registry.tableItems .entity before aliases = .ok (items, later)) ∧
    on.isOn = true ∧ token.isConnective = false ∧ takeCondition? token rest = none ∧
      problem = malformedCondition token

/-- **A malformed join is reported if and only if the clause breaks off in a condition.** -/
theorem tableItems_eq_malformedJoin_iff {tokens : List Token} {aliases : Aliases}
    {detail : String} :
    registry.tableItems .entity tokens aliases = .error (.malformedJoin detail) ↔
      registry.BreaksOff tokens aliases (.malformedJoin detail) := by
  constructor
  · intro fails
    obtain ⟨last, runs, blocked⟩ := TableScan.error_iff_runs.mp fails
    generalize reason : MappingError.malformedJoin detail = problem at blocked ⊢
    cases blocked with
    | @incomplete token rest later plain incomplete =>
        obtain ⟨before, on, whole, isOn, items, accepted⟩ := TableScan.Runs.exists_on runs
        exact ⟨before, on, token, rest, whole, ⟨items, later, accepted⟩, isOn, plain,
          incomplete, rfl⟩
    | entity _ unknown =>
        cases reason.trans (entity_error unknown)
    | left _ _ fails | right _ _ _ fails =>
        cases reason ▸ field_error fails
    | other _ fails =>
        cases reason ▸ token_error fails
  · rintro ⟨before, on, token, rest, rfl, ⟨items, later, accepted⟩, isOn, plain, incomplete, same⟩
    obtain ⟨final, runs⟩ := TableScan.ok_iff_runs.mp ⟨items, accepted⟩
    have onwards := runs.append (Token.isConnective_of_isOn isOn) (token :: rest)
    rw [same]
    exact TableScan.error_iff_runs.mpr ⟨_, onwards.tail (.on isOn), .incomplete plain incomplete⟩

section

variable {text : String} {aliases : Aliases} {tokens : List Token}

theorem tableClause_eq_bind (scanned : Query.tokenize .table text = .ok tokens) :
    registry.tableClause text aliases =
      registry.tableItems .entity tokens aliases >>= fun parts =>
        match splitFirstTable? parts.1 with
        | some split => .ok (split, parts.2)
        | none => .error (.malformedQuery "empty table clause") := by
  rw [tableClause, scanned]
  rfl

/-- A clause that is accepted has tokens, and all its parts are accepted. -/
theorem exists_tokens_of_tableClause {later : Aliases} {clause : Sql.TableRef × List Sql.TableItem}
    (accepted : registry.tableClause text aliases = .ok (clause, later)) :
    ∃ tokens items, Query.tokenize .table text = .ok tokens ∧
      registry.tableItems .entity tokens aliases = .ok (items, later) := by
  obtain ⟨tokens, items, scanned, parts, _⟩ := exists_items_of_tableClause accepted
  exact ⟨tokens, items, scanned, parts⟩

/-- A malformed join is reported for the parts of a clause. -/
theorem tableClause_eq_malformedJoin_iff {detail : String} :
    registry.tableClause text aliases = .error (.malformedJoin detail) ↔
      ∃ tokens, Query.tokenize .table text = .ok tokens ∧
        registry.tableItems .entity tokens aliases = .error (.malformedJoin detail) := by
  constructor
  · intro fails
    cases scanned : Query.tokenize .table text with
    | error problem =>
        rw [tableClause, scanned] at fails
        cases fails
    | ok tokens =>
        rw [tableClause_eq_bind scanned] at fails
        rcases error_of_bind fails with inParts | ⟨parts, _, last⟩
        · exact ⟨tokens, rfl, inParts⟩
        · split at last
          · cases last
          · cases last
  · rintro ⟨tokens, scanned, inParts⟩
    exact (tableClause_eq_bind scanned).trans (bind_of_error inParts)

end

/-- **Over any registry, a table clause that is accepted follows the grammar if and only if it has
no empty place, and a malformed join is reported if and only if the clause breaks off in a
condition.** -/
theorem tableClause_grammatical_iff (registry : Registry) (text : String) (aliases : Aliases) :
    (∀ clause later, registry.tableClause text aliases = .ok (clause, later) →
      ∃ tokens, Query.tokenize .table text = .ok tokens ∧
        (registry.Grammatical .entity tokens aliases later ↔ Filled .entity tokens)) ∧
    ∀ detail, registry.tableClause text aliases = .error (.malformedJoin detail) ↔
      ∃ tokens, Query.tokenize .table text = .ok tokens ∧
        registry.BreaksOff tokens aliases (.malformedJoin detail) := by
  constructor
  · intro clause later accepted
    obtain ⟨tokens, items, scanned, parts⟩ := exists_tokens_of_tableClause accepted
    obtain ⟨final, runs⟩ := TableScan.ok_iff_runs.mp ⟨items, parts⟩
    exact ⟨tokens, scanned, Grammatical.filled, runs.grammatical⟩
  · intro detail
    simp only [tableClause_eq_malformedJoin_iff, tableItems_eq_malformedJoin_iff]

/-- A clause with an entity in each place for one and a condition after its `on`. -/
theorem tableClause_grammatical_shops :
    ∃ clause later tokens,
      Sample.schema.tableClause "Shop s join Tag on s.area = Tag.label" .empty =
        .ok (clause, later) ∧
        Query.tokenize .table "Shop s join Tag on s.area = Tag.label" = .ok tokens ∧
          Sample.schema.Grammatical .entity tokens .empty later := by
  have shown : (Sample.schema.tableClause "Shop s join Tag on s.area = Tag.label"
      .empty).toOption.map
      (fun _ => true) = some true := by
    decide +kernel
  have noneEmpty : (Query.tokenize .table "Shop s join Tag on s.area = Tag.label").toOption.map
      (fun tokens => decide (Filled .entity tokens)) = some true := by
    decide +kernel
  obtain ⟨⟨clause, later⟩, accepted, _⟩ := exists_ok_of_shown shown
  obtain ⟨tokens, scanned, isFilled⟩ := exists_ok_of_shown noneEmpty
  obtain ⟨others, same, follows⟩ :=
    (tableClause_grammatical_iff Sample.schema _ .empty).1 clause later accepted
  cases scanned.symm.trans same
  exact ⟨clause, later, tokens, accepted, scanned, follows.mpr (of_decide_eq_true isFilled)⟩

/-- A clause that ends after `on` is accepted, though the place for the condition is empty. -/
theorem tableClause_endsAfterOn :
    ∃ clause later tokens,
      Sample.schema.tableClause "Tag a join Tag b on" .empty = .ok (clause, later) ∧
        Query.tokenize .table "Tag a join Tag b on" = .ok tokens ∧
          ¬ ∀ place ∈ conditionPlaces .entity tokens, HasCondition place := by
  have shown : (Sample.schema.tableClause "Tag a join Tag b on" .empty).toOption.map
      (fun _ => true) = some true := by
    decide +kernel
  have isEmpty : (Query.tokenize .table "Tag a join Tag b on").toOption.map
      (fun tokens => decide ([] ∈ conditionPlaces .entity tokens)) = some true := by
    decide +kernel
  obtain ⟨⟨clause, later⟩, accepted, _⟩ := exists_ok_of_shown shown
  obtain ⟨tokens, scanned, empty⟩ := exists_ok_of_shown isEmpty
  refine ⟨clause, later, tokens, accepted, scanned, fun complete => ?_⟩
  obtain ⟨_, _, _, _, same, _⟩ := complete [] (of_decide_eq_true empty)
  cases same

end Registry

end EntityQuery

import EntityQuery.Proofs.Renaming.Resolution
import EntityQuery.Proofs.Tables.Addressing

/-!
# Table clauses under other names

In a table clause an alias is written anew in its entry, in the sides of conditions and at the start
of paths; entities, connectives and words that are copied stay as they are (`renameTable`). The new
tokens are of the kinds of the old ones (`renamed_renameTable`).

If no two names of entries become the same, and the names of entities listed without an alias are
kept, the new clause has the tables and conditions of the old one (`Schema.tableItems_carry`).
-/

set_option autoImplicit false

namespace EntityQuery

open Registry
open Query (Token Renamed isIdentifier)

/-- A token with another name in its place. -/
def Query.Token.renameWhole (σ : String → String) (token : Token) : Token :=
  { token with lexeme := σ token.lexeme }

/-- The alias after an entity, written anew. -/
def renameAlias (σ : String → String) : List Token → List Token
  | [] => []
  | token :: _ => if isAliasToken token then [token.renameWhole σ] else []

/-- What is left of a table clause in a state, with other names. -/
def renameTable (σ : String → String) (state : TableState) (tokens : List Token) : List Token :=
  match tokens with
  | [] => []
  | token :: rest =>
    if token.isSeparator then token :: renameTable σ .entity rest
    else if token.isOn then token :: renameTable σ .condition rest
    else
      match state with
      | .entity =>
        have := length_takeAlias rest
        token :: (renameAlias σ rest ++ renameTable σ .any (takeAlias rest).2)
      | .condition =>
        match found : takeCondition? token rest with
        | none => token :: rest
        | some (right, after) =>
          have := length_takeCondition? found
          token.rename σ :: (rest.take 1 ++ right.rename σ :: renameTable σ .any after)
      | .any => token.renamePath σ :: renameTable σ .any rest
termination_by tokens.length

section

variable {σ : String → String} {token : Token} {rest : List Token}

theorem renameTable_separator (separator : token.isSeparator = true) (state : TableState) :
    renameTable σ state (token :: rest) = token :: renameTable σ .entity rest := by
  rw [renameTable.eq_def]
  simp only [separator, if_true]

theorem renameTable_on (on : token.isOn = true) (state : TableState) :
    renameTable σ state (token :: rest) = token :: renameTable σ .condition rest := by
  rw [renameTable.eq_def]
  simp only [Token.not_isSeparator_of_isOn on, Bool.false_eq_true, if_false, on, if_true]

theorem renameTable_entity (plain : token.isConnective = false) :
    renameTable σ .entity (token :: rest) =
      token :: (renameAlias σ rest ++ renameTable σ .any (takeAlias rest).2) := by
  rw [renameTable]
  simp only [Token.not_isSeparator_of_plain plain, Token.not_isOn_of_plain plain,
    Bool.false_eq_true, if_false]

theorem renameTable_condition (plain : token.isConnective = false) {mark right : Token}
    {after : List Token}
    (complete : takeCondition? token (mark :: right :: after) = some (right, after)) :
    renameTable σ .condition (token :: mark :: right :: after) =
      token.rename σ :: mark :: right.rename σ :: renameTable σ .any after := by
  rw [renameTable]
  simp only [Token.not_isSeparator_of_plain plain, Token.not_isOn_of_plain plain,
    Bool.false_eq_true, if_false]
  split
  · next incomplete =>
    rw [incomplete] at complete
    cases complete
  · next same =>
    rw [same] at complete
    cases complete
    rfl

theorem renameTable_any (plain : token.isConnective = false) :
    renameTable σ .any (token :: rest) = token.renamePath σ :: renameTable σ .any rest := by
  rw [renameTable]
  simp only [Token.not_isSeparator_of_plain plain, Token.not_isOn_of_plain plain,
    Bool.false_eq_true, if_false]

end

variable {σ : String → String} {token : Token} {rest : List Token}

/-! ## The kinds of the new tokens -/

/-- A token written anew is of the kind of the old one, and begins with another identifier at most.
-/
def Query.Token.RenamedTo (token other : Token) : Prop :=
  other.kind = token.kind ∧ Renamed token.lexeme.toList other.lexeme.toList

theorem Query.Token.RenamedTo.refl (token : Token) : token.RenamedTo token :=
  ⟨rfl, .kept _⟩

theorem renamedTo_rename (renames : Renames σ) (token : Token) :
    token.RenamedTo (token.rename σ) := by
  refine ⟨rfl, ?_⟩
  rw [Token.rename, String.toList_ofList]
  exact renamed_renameHead renames _

theorem renamedTo_renamePath (renames : Renames σ) (token : Token) :
    token.RenamedTo (token.renamePath σ) := by
  unfold Token.renamePath
  split
  · exact renamedTo_rename renames token
  · exact .refl token

theorem renamedTo_renameWhole (renames : Renames σ) (token : Token) :
    token.RenamedTo (token.renameWhole σ) := by
  refine ⟨rfl, ?_⟩
  rw [Token.renameWhole]
  rcases renames token.lexeme with same | ⟨identifier, becomes⟩
  · rw [same]
    exact .kept _
  · have change : Renamed (token.lexeme.toList ++ []) ((σ token.lexeme).toList ++ []) :=
      .head identifier becomes.newName nofun
    rwa [List.append_nil, List.append_nil] at change

/-- The alias after an entity is the first token behind it, if it is an alias. -/
theorem renamed_renameAlias (renames : Renames σ) {others : List Token}
    (onwards : List.Forall₂ Token.RenamedTo (takeAlias rest).2 others) :
    List.Forall₂ Token.RenamedTo rest (renameAlias σ rest ++ others) := by
  cases rest with
  | nil => exact onwards
  | cons token rest =>
      rw [takeAlias] at onwards
      rw [renameAlias]
      split at onwards
      · next isAlias =>
        rw [if_pos isAlias]
        exact .cons (renamedTo_renameWhole renames token) onwards
      · next notAlias =>
        rw [if_neg notAlias]
        exact onwards

/-- **The new tokens of a table clause are of the kinds of the old ones.** -/
theorem renamed_renameTable (renames : Renames σ) (state : TableState) (tokens : List Token) :
    List.Forall₂ Token.RenamedTo tokens (renameTable σ state tokens) := by
  fun_induction renameTable σ state tokens with
  | case1 => exact .nil
  | case2 state token rest separator ih => exact .cons (.refl token) ih
  | case3 state token rest notSeparator on ih => exact .cons (.refl token) ih
  | case4 token rest notSeparator notOn _ ih =>
      exact .cons (.refl token) (renamed_renameAlias renames ih)
  | case5 token rest notSeparator notOn incomplete =>
      exact List.forall₂_same.mpr fun other _ => .refl other
  | case6 token rest notSeparator notOn right after complete _ ih =>
      obtain ⟨mark, rfl, _⟩ := takeCondition?_eq_some.mp complete
      exact .cons (renamedTo_rename renames token)
        (.cons (.refl mark) (.cons (renamedTo_rename renames right) ih))
  | case7 token rest notSeparator notOn ih => exact .cons (renamedTo_renamePath renames token) ih

/-! ## What the new tokens are read as -/

/-- A text with another head is none of the words between entities, unless it was one. -/
theorem sameIgnoringCase_renameHead (renames : Renames σ) {text : List Char} {word : String}
    (isWord : word ∈ joinWords)
    (same : Text.sameIgnoringCase (String.ofList (renameHead σ text)) word = true) :
    Text.sameIgnoringCase (String.ofList text) word = true := by
  rcases renames (headOf text) with kept | ⟨_, becomes⟩
  · rwa [renameHead_of_eq kept] at same
  · cases rest : text.dropWhile (· ≠ '.') with
    | nil =>
        have alone := becomes.notJoinWord
        rw [List.any_eq_false] at alone
        rw [renameHead, rest, List.append_nil, String.ofList_toList] at same
        exact absurd same (alone word isWord)
    | cons c more =>
        have isDot : c = '.' := Text.eq_of_head?_dropWhile (by rw [rest]; rfl)
        have noDot : ∀ word ∈ joinWords, '.' ∉ word.toList.map Char.toLower := by decide
        rw [renameHead, rest, Text.sameIgnoringCase, beq_iff_eq, String.toList_ofList,
          isDot] at same
        have member : '.' ∈ word.toList.map Char.toLower := by
          rw [← same, List.map_append, List.map_cons]
          exact List.mem_append_right _ (List.mem_cons_self ..)
        exact absurd member (noDot word isWord)

/-- A side of a condition with another name is no connective. -/
theorem plain_rename (renames : Renames σ) (isField : isFieldToken token = true)
    (plain : token.isConnective = false) : (token.rename σ).isConnective = false := by
  have keyword : ∀ word ∈ joinWords, token.isKeyword word = false →
      (token.rename σ).isKeyword word = false := by
    intro word isWord notWord
    cases same : (token.rename σ).isKeyword word with
    | false => rfl
    | true =>
        rw [Token.isKeyword, Bool.and_eq_true] at same
        have sameToo := sameIgnoringCase_renameHead renames isWord same.2
        rw [String.ofList_toList] at sameToo
        rw [Token.isKeyword, sameToo, Bool.and_true] at notWord
        exact same.1.symm.trans notWord
  have noMark : (token.rename σ).isMark "," = false := by
    rw [isFieldToken, Bool.or_eq_true, beq_iff_eq, beq_iff_eq] at isField
    rcases isField with isPath | isWord
    · simp only [Token.isMark, Token.rename, isPath]
      rfl
    · simp only [Token.isMark, Token.rename, isWord]
      rfl
  obtain ⟨notSeparator, notOn⟩ := Token.tests_of_plain plain
  have notJoin := keyword "join" (by decide) (Bool.or_eq_false_iff.mp notSeparator).2
  rw [Token.isConnective, Token.isSeparator, Token.isOn, noMark, notJoin,
    keyword "on" (by decide) notOn]
  rfl

/-- A condition with other names is a condition, and its left side is no connective. -/
theorem condition_rename (renames : Renames σ) (plain : token.isConnective = false) {right : Token}
    {after : List Token} (complete : takeCondition? token rest = some (right, after)) :
    ∃ mark, rest = mark :: right :: after ∧ (token.rename σ).isConnective = false ∧
      ∀ more, takeCondition? (token.rename σ) (mark :: right.rename σ :: more) =
        some (right.rename σ, more) := by
  obtain ⟨mark, rfl, equals, leftField, rightField⟩ := takeCondition?_eq_some.mp complete
  exact ⟨mark, rfl, plain_rename renames leftField plain, fun _ =>
    takeCondition?_eq_some.mpr ⟨mark, rfl, equals, leftField, rightField⟩⟩

/-- An alias written anew is an alias. -/
theorem isAliasToken_renameWhole (renames : Renames σ) (isAlias : isAliasToken token = true) :
    isAliasToken (token.renameWhole σ) = true := by
  rcases renames token.lexeme with same | ⟨_, becomes⟩
  · rwa [Token.renameWhole, same]
  · rw [isAliasToken, Bool.and_eq_true] at isAlias ⊢
    refine ⟨isAlias.1, ?_⟩
    rw [Token.renameWhole, becomes.notJoinWord]
    rfl

/-- A path is no connective and no alias. -/
theorem plain_of_isPath (isPath : token.kind = .path) :
    token.isConnective = false ∧ isAliasToken token = false := by
  simp only [Token.isConnective, Token.isSeparator, Token.isOn, Token.isMark, Token.isKeyword,
    isAliasToken, isPath]
  exact ⟨rfl, rfl⟩

theorem renamePath_of_isPath (isPath : token.kind = .path) : token.renamePath σ = token.rename σ :=
  if_pos isPath

theorem renamePath_of_not (notPath : token.kind ≠ .path) : token.renamePath σ = token :=
  if_neg notPath

theorem plain_renamePath (plain : token.isConnective = false) :
    (token.renamePath σ).isConnective = false := by
  by_cases isPath : token.kind = .path
  · rw [renamePath_of_isPath isPath]
    exact (@plain_of_isPath (token.rename σ) isPath).1
  · rwa [renamePath_of_not isPath]

/-- Behind an entity without an alias no token becomes one. -/
theorem takeAlias_renameTable (notAlias : isAliasToken token = false) :
    takeAlias (renameTable σ .any (token :: rest)) =
      (none, renameTable σ .any (token :: rest)) := by
  have first : ∃ other more, renameTable σ .any (token :: rest) = other :: more ∧
      isAliasToken other = false := by
    cases separator : token.isSeparator with
    | true => exact ⟨token, _, renameTable_separator separator _, notAlias⟩
    | false =>
        cases on : token.isOn with
        | true => exact ⟨token, _, renameTable_on on _, notAlias⟩
        | false =>
            have plain : token.isConnective = false := by
              rw [Token.isConnective, separator, on]
              rfl
            refine ⟨token.renamePath σ, _, renameTable_any plain, ?_⟩
            by_cases isPath : token.kind = .path
            · rw [renamePath_of_isPath isPath]
              exact (@plain_of_isPath (token.rename σ) isPath).2
            · rwa [renamePath_of_not isPath]
  obtain ⟨other, more, whole, notAliasToo⟩ := first
  rw [whole, takeAlias, if_neg (Bool.eq_false_iff.mp notAliasToo)]

/-- The alias after an entity is the new one, and behind it stands what stood there with other
names. -/
theorem takeAlias_renameAlias (renames : Renames σ) (rest : List Token) :
    takeAlias (renameAlias σ rest ++ renameTable σ .any (takeAlias rest).2) =
      ((takeAlias rest).1.map σ, renameTable σ .any (takeAlias rest).2) := by
  cases rest with
  | nil =>
      rw [takeAlias, renameAlias, renameTable]
      rfl
  | cons token rest =>
      rw [renameAlias, takeAlias.eq_2]
      by_cases isAlias : isAliasToken token = true
      · rw [if_pos isAlias, if_pos isAlias, List.singleton_append, takeAlias,
          if_pos (isAliasToken_renameWhole renames isAlias)]
        rfl
      · rw [if_neg isAlias, if_neg isAlias, List.nil_append]
        exact takeAlias_renameTable (Bool.eq_false_iff.mpr isAlias)

/-! ## Entries -/

/-- An entry with another alias. -/
def TableEntry.rename (σ : String → String) (entry : TableEntry) : TableEntry :=
  { entry with alias? := entry.alias?.map σ }

/-- **A table clause with other names has the entries of the old one with other aliases.** -/
theorem tableEntries_renameTable (renames : Renames σ) (state : TableState) (tokens : List Token) :
    tableEntries state (renameTable σ state tokens) =
      (tableEntries state tokens).map (TableEntry.rename σ) := by
  fun_induction renameTable σ state tokens with
  | case1 =>
      rw [tableEntries]
      rfl
  | case2 state token rest separator ih =>
      rw [tableEntries_separator separator, tableEntries_separator separator, ih]
  | case3 state token rest notSeparator on ih => rw [tableEntries_on on, tableEntries_on on, ih]
  | case4 token rest notSeparator notOn _ ih =>
      have plain := Token.plain_of_tests notSeparator notOn
      rw [tableEntries_entity plain, tableEntries_entity plain, takeAlias_renameAlias renames, ih]
      rfl
  | case5 token rest notSeparator notOn incomplete =>
      have plain := Token.plain_of_tests notSeparator notOn
      rw [tableEntries_incomplete plain incomplete]
      rfl
  | case6 token rest notSeparator notOn right after complete _ ih =>
      have plain := Token.plain_of_tests notSeparator notOn
      obtain ⟨mark, rfl, plainToo, completeToo⟩ := condition_rename renames plain complete
      rw [List.take_one, List.head?_cons, Option.toList_some, List.singleton_append,
        tableEntries_condition plainToo (completeToo _), tableEntries_condition plain complete, ih]
  | case7 token rest notSeparator notOn ih =>
      have plain := Token.plain_of_tests notSeparator notOn
      rw [tableEntries_any (plain_renamePath plain), tableEntries_any plain, ih]

/-! ## Table clauses -/

/-- The names are kept apart: no two of them become the same. -/
def Apart (σ : String → String) (names : List String) : Prop :=
  ∀ one ∈ names, ∀ other ∈ names, σ one = σ other → one = other

/-- The written names of a table are among the given ones. -/
def Aliases.Among (names : List String) (aliases : Aliases) : Prop :=
  ∀ binding ∈ aliases.bindings, binding.written ∈ names

theorem Aliases.Among.separates {names : List String} {aliases : Aliases}
    (among : aliases.Among names) (apart : Apart σ names) : aliases.Separates σ :=
  fun one bound other boundToo => apart _ (among one bound) _ (among other boundToo)

theorem Aliases.Among.of_keeps {names : List String} {aliases later : Aliases}
    (among : aliases.Among names) (keeps : aliases.Keeps later) : later.Among names := by
  unfold Aliases.Among
  rw [keeps.bindings]
  exact among

/-- The name of an entry is among the given ones. It is kept if it is the name of the entity. -/
structure TableEntry.Known (entry : TableEntry) (σ : String → String)
    (names : List String) : Prop where
  listed : entry.written ∈ names
  kept : entry.alias? = none → σ entry.entity = entry.entity

/-- A part in front makes no difference. -/
theorem Carries.inFront {outcome renamed : Except MappingError (List Sql.TableItem × Aliases)}
    (carries : Carries σ outcome renamed) (item : Sql.TableItem) :
    Carries σ (TableScan.inFront item outcome) (TableScan.inFront item renamed) :=
  carries.bind fun _ _ _ => .ok _ _

namespace Schema

variable {schema : Schema} {aliases : Aliases} {names : List String}

/-- An entry is bound to the new name as it was to the old one. -/
theorem bind_rename {entry : TableEntry} (known : entry.Known σ names) :
    (aliases.rename σ).bind entry.entity (entry.alias?.map σ) =
      ((aliases.bind entry.entity entry.alias?).1,
        (aliases.bind entry.entity entry.alias?).2.rename σ) := by
  obtain ⟨entity, alias?⟩ := entry
  cases alias? with
  | some alias_ => rfl
  | none =>
      have kept : σ entity = entity := known.kept rfl
      simp only [Aliases.bind, Aliases.rename, List.map_cons, Binding.rename, Option.map_none,
        Option.getD_none, kept]
      rfl

theorem Among.bind {entry : TableEntry} (among : aliases.Among names)
    (known : entry.Known σ names) :
    (aliases.bind entry.entity entry.alias?).2.Among names := by
  intro binding bound
  rcases List.mem_cons.mp bound with rfl | old
  · exact known.listed
  · exact among binding old

/-- **A table clause with other names has the tables and conditions of the old one.** -/
theorem tableItems_carry (renames : Renames σ) (apart : Apart σ names) (state : TableState)
    (tokens : List Token) (aliases : Aliases) (among : aliases.Among names)
    (known : ∀ entry ∈ tableEntries state tokens, entry.Known σ names) :
    Carries σ (schema.tableItems state tokens aliases)
      (schema.tableItems state (renameTable σ state tokens) (aliases.rename σ)) := by
  fun_induction Registry.tableItems schema state tokens aliases with
  | case1 state aliases =>
      rw [renameTable, tableItems.eq_def]
      exact .ok _ _
  | case2 state aliases token rest separator ih =>
      rw [tableEntries_separator separator] at known
      rw [renameTable_separator separator, TableScan.tableItems_separator separator]
      exact (ih among known).inFront _
  | case3 state aliases token rest notSeparator on ih =>
      rw [tableEntries_on on] at known
      rw [renameTable_on on, TableScan.tableItems_on on]
      exact (ih among known).inFront _
  | case4 aliases token rest notSeparator notOn _ ih =>
      have plain := Token.plain_of_tests notSeparator notOn
      rw [tableEntries_entity plain] at known
      have knownFirst := known _ (List.mem_cons_self ..)
      rw [renameTable_entity plain, TableScan.tableItems_entity plain,
        takeAlias_renameAlias renames]
      apply Carries.step
      intro entity found
      obtain ⟨name, _⟩ := registered_of_entity found
      rw [← name] at knownFirst
      have onwards := ih _ (Among.bind among knownFirst)
        fun entry member => known entry (List.mem_cons_of_mem _ member)
      rw [bind_rename knownFirst]
      exact onwards.inFront _
  | case5 aliases token rest notSeparator notOn incomplete => exact .error _ _
  | case6 aliases token rest notSeparator notOn right after complete _ ih =>
      have plain := Token.plain_of_tests notSeparator notOn
      rw [tableEntries_condition plain complete] at known
      obtain ⟨mark, rfl, plainToo, completeToo⟩ := condition_rename renames plain complete
      rw [renameTable_condition plain complete,
        TableScan.tableItems_condition plainToo (completeToo _)]
      have left := schema.field_carries renames (among.separates apart) .referencingKey
        token.lexeme.toList
      rw [String.ofList_toList] at left
      apply left.bind
      intro leftColumn middle leftOk
      have amongMiddle := among.of_keeps (field_keeps leftOk)
      have other := schema.field_carries renames (amongMiddle.separates apart)
        .referencingKey right.lexeme.toList
      rw [String.ofList_toList] at other
      apply other.bind
      intro rightColumn last rightOk
      exact (ih last (amongMiddle.of_keeps (field_keeps rightOk)) known).inFront _
  | case7 aliases token rest notSeparator notOn ih =>
      have plain := Token.plain_of_tests notSeparator notOn
      rw [tableEntries_any plain] at known
      rw [renameTable_any plain, TableScan.tableItems_any (plain_renamePath plain)]
      apply (token_carries renames (among.separates apart) .referencingKey token).bind
      intro expr later firstOk
      exact (ih later (among.of_keeps (token_keeps firstOk)) known).inFront _

end Schema

end EntityQuery

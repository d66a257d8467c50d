import EntityQuery.Proofs.Renaming.SelectList
import EntityQuery.Proofs.Renaming.TableClause

/-!
# Layouts under other names

In the layout of a query the text of each clause is written anew with other names, and the keywords
are kept (`Layout.mapTexts`). The new layout is sound if in every text only names are changed, for
no new name is a word of a keyword, and a keyword that is found in the new query was in the old one
(`Layout.Sound.mapTexts`).

A text that is split is taken apart into its layout by the lengths of its clauses
(`Layout.ofClauses_text`).
-/

set_option autoImplicit false

namespace EntityQuery.Query

/-! ## The texts of clauses -/

/-- A text with other tokens. What is not read as tokens is kept. -/
def rewriteTokens (marks : MarkSet) (change : List Token → List Token) (text : List Char) :
    List Char :=
  match tokensFrom marks 0 text with
  | .ok tokens =>
    respell ((tokens.map fun token => token.lexeme.toList).zip
      ((change tokens).map fun token => token.lexeme.toList)) text
  | .error _ => text

/-- The text of a clause with other names. -/
def renameClause (σ : String → String) : Clause → List Char → List Char
  | .select => renameSelect σ
  | .table => rewriteTokens .table (renameTable σ .entity)
  | .filter => rewriteTokens .filter (List.map (Token.renamePath σ))
  | .order => rewriteTokens .order (List.map (Token.renamePath σ))

variable {marks : MarkSet} {change : List Token → List Token} {text : List Char}
  {tokens : List Token}

/-- A text with other tokens is read as these, and apart from the names nothing is changed in it. -/
theorem lexed_rewriteTokens (scanned : tokensFrom marks 0 text = .ok tokens)
    (renamed : List.Forall₂ Token.RenamedTo tokens (change tokens)) :
    Lexed marks (rewriteTokens marks change text) ((change tokens).map Token.toLexeme) ∧
      Respelled false text (rewriteTokens marks change text) := by
  have lexemes : List.Forall₂
      (fun old new : Lexeme => new.kind = old.kind ∧ Renamed old.text new.text)
      (tokens.map Token.toLexeme) ((change tokens).map Token.toLexeme) := by
    rw [List.forall₂_map_left_iff, List.forall₂_map_right_iff]
    exact renamed
  have rewritten := lexed_respell (lexed_of_tokensFrom scanned) lexemes
  rw [List.map_map, List.map_map] at rewritten
  rw [rewriteTokens, scanned]
  exact rewritten

/-- **A text with other tokens is read as these**, but for their places. -/
theorem exists_tokens_of_rewriteTokens {text : String} (scanned : tokenize marks text = .ok tokens)
    (renamed : List.Forall₂ Token.RenamedTo tokens (change tokens)) :
    ∃ others, tokenize marks (String.ofList (rewriteTokens marks change text.toList)) = .ok others ∧
      others.map Token.toLexeme = (change tokens).map Token.toLexeme := by
  rw [tokenize, String.toList_ofList]
  exact exists_tokens_of_lexed (lexed_rewriteTokens scanned renamed).1 0

theorem respelled_rewriteTokens
    (renamed : ∀ tokens, List.Forall₂ Token.RenamedTo tokens (change tokens)) (text : List Char) :
    Respelled false text (rewriteTokens marks change text) := by
  cases scanned : tokensFrom marks 0 text with
  | ok tokens => exact (lexed_rewriteTokens scanned (renamed tokens)).2
  | error problem =>
      rw [rewriteTokens, scanned]
      exact .refl false text

variable {σ : String → String}

theorem renamed_renamePaths (renames : Renames σ) (tokens : List Token) :
    List.Forall₂ Token.RenamedTo tokens (tokens.map (Token.renamePath σ)) := by
  rw [List.forall₂_map_right_iff]
  exact List.forall₂_same.mpr fun token _ => renamedTo_renamePath renames token

/-- **Only names are changed in the text of a clause.** -/
theorem respelled_renameClause (renames : Renames σ) (clause : Clause) (text : List Char) :
    Respelled false text (renameClause σ clause text) := by
  cases clause with
  | select => exact respelled_renameSelect renames text
  | table => exact respelled_rewriteTokens (renamed_renameTable renames .entity) text
  | filter | order => exact respelled_rewriteTokens (renamed_renamePaths renames) text

/-! ## Phrases -/

/-- A phrase with another text. -/
def Phrase.mapText (change : List Char → List Char) (phrase : Phrase) : Phrase :=
  { phrase with text := change phrase.text }

namespace Phrase.Sound

variable {phrase : Phrase} {clause : Clause} {change : List Char → List Char}

theorem mapText (sound : phrase.Sound clause)
    (respelled : Respelled false phrase.text (change phrase.text)) :
    (phrase.mapText change).Sound clause where
  spelling := sound.spelling
  notEmpty empty := by
    rw [show change phrase.text = [] from empty] at respelled
    exact sound.notEmpty respelled.eq_nil
  closed := (respelled.afterText_eq isQuote_of_none).trans sound.closed

/-- The space at the end of the keyword is kept before the new text. -/
theorem respelled (sound : phrase.Sound clause)
    (respelled : Respelled false phrase.text (change phrase.text)) :
    Respelled false phrase.written (phrase.mapText change).written := by
  obtain ⟨letters, whole⟩ := sound.keyword_ends
  rw [written, written, Phrase.mapText, whole, List.append_assoc, List.append_assoc]
  exact respelled.behind letters (by decide)

/-- What begins with the space before a keyword may stand behind any name. -/
theorem follows (sound : phrase.Sound clause) (later : clause ≠ .select)
    (respelled : Respelled false phrase.text (change phrase.text)) :
    Follows phrase.written (phrase.mapText change).written := by
  obtain ⟨rest, begins⟩ := sound.begins later
  apply @Respelled.follows .table _ _ _ (sound.respelled respelled)
  rw [begins]
  rfl

end Phrase.Sound

theorem Follows.append {text other more others : List Char} (first : Follows text other)
    (second : Follows more others) : Follows (text ++ more) (other ++ others) := by
  cases first with
  | nil => exact second
  | cons separator respelled => exact .cons separator (respelled.append second)

theorem follows_written? {phrase? : Option Phrase} {clause : Clause}
    {change : List Char → List Char} (sound : ∀ phrase ∈ phrase?, phrase.Sound clause)
    (later : clause ≠ .select) (respelled : ∀ text, Respelled false text (change text)) :
    Follows (written? phrase?) (written? (phrase?.map (Phrase.mapText change))) := by
  cases phrase? with
  | none => exact .nil
  | some phrase => exact (sound phrase rfl).follows later (respelled _)

/-! ## Layouts -/

namespace Layout

/-- A layout with other texts of its clauses. -/
def mapTexts (change : Clause → List Char → List Char) (layout : Layout) : Layout where
  select := layout.select.mapText (change .select)
  table := layout.table.mapText (change .table)
  filter? := layout.filter?.map (Phrase.mapText (change .filter))
  order? := layout.order?.map (Phrase.mapText (change .order))

section

variable {layout : Layout} {change : Clause → List Char → List Char}

/-- The clauses behind the table clause may stand behind any name. -/
theorem Sound.follows_others (sound : layout.Sound)
    (respelled : ∀ clause text, Respelled false text (change clause text)) :
    Follows (written? layout.filter? ++ written? layout.order?)
      (written? (layout.mapTexts change).filter? ++ written? (layout.mapTexts change).order?) :=
  (follows_written? sound.filter nofun (respelled .filter)).append
    (follows_written? sound.order nofun (respelled .order))

theorem Sound.follows_table (sound : layout.Sound)
    (respelled : ∀ clause text, Respelled false text (change clause text)) :
    Follows (layout.table.written ++ (written? layout.filter? ++ written? layout.order?))
      ((layout.mapTexts change).table.written ++
        (written? (layout.mapTexts change).filter? ++ written? (layout.mapTexts change).order?)) :=
  (sound.table.follows nofun (respelled .table _)).append (sound.follows_others respelled)

/-- **Only names are changed in the text of a layout.** -/
theorem Sound.respelled_text (sound : layout.Sound)
    (respelled : ∀ clause text, Respelled false text (change clause text)) :
    Respelled false layout.text (layout.mapTexts change).text :=
  (sound.select.respelled (respelled .select _)).append (sound.follows_table respelled)

/-- **A layout in which only names are changed is sound.** -/
theorem Sound.mapTexts (sound : layout.Sound)
    (respelled : ∀ clause text, Respelled false text (change clause text)) :
    (layout.mapTexts change).Sound where
  select := sound.select.mapText (respelled .select _)
  table := sound.table.mapText (respelled .table _)
  filter := by
    intro _ present
    obtain ⟨phrase, old, rfl⟩ := Option.map_eq_some_iff.mp present
    exact (sound.filter phrase old).mapText (respelled .filter _)
  order := by
    intro _ present
    obtain ⟨phrase, old, rfl⟩ := Option.map_eq_some_iff.mp present
    exact (sound.order phrase old).mapText (respelled .order _)
  tableFirst :=
    (sound.select.respelled (respelled .select _)).free (nofun : Clause.table ≠ .select)
      (sound.follows_table respelled) isQuote_of_none sound.tableFirst
  filterFirst := by
    intro _ present
    obtain ⟨phrase, old, rfl⟩ := Option.map_eq_some_iff.mp present
    have behind := ((sound.filter phrase old).follows nofun (respelled .filter _)).append
      (follows_written? sound.order nofun (respelled .order))
    exact (sound.table.respelled (respelled .table _)).free (nofun : Clause.filter ≠ .select) behind
      isQuote_of_none (sound.filterFirst phrase old)
  filterAbsent := by
    intro absent
    have whole := (sound.table.respelled (respelled .table _)).append
      (follows_written? sound.order nofun (respelled .order))
    exact whole.free (nofun : Clause.filter ≠ .select) .nil isQuote_of_none
      (sound.filterAbsent (Option.map_eq_none_iff.mp absent))
  orderFirst := by
    have last : Respelled false (layout.filter?.getD layout.table).written
        ((layout.mapTexts change).filter?.getD (layout.mapTexts change).table).written := by
      rw [Layout.mapTexts]
      cases present : layout.filter? with
      | none => exact sound.table.respelled (respelled .table _)
      | some phrase => exact (sound.filter phrase present).respelled (respelled .filter _)
    exact last.free (nofun : Clause.order ≠ .select)
      (follows_written? sound.order nofun (respelled .order)) isQuote_of_none sound.orderFirst

end

/-! ## The layout of a query that is split -/

end Layout

/-- The phrase of a clause at the start of a text. -/
def Phrase.front (clause : Clause) (text : List Char) (clauseText : String) : Phrase where
  keyword := text.take clause.opening.length
  text := clauseText.toList

theorem Phrase.Sound.front_written {phrase : Phrase} {clause : Clause} (sound : phrase.Sound clause)
    (more : List Char) :
    Phrase.front clause (phrase.written ++ more) (String.ofList phrase.text) = phrase := by
  rw [Phrase.front, Phrase.written, ← sound.length_keyword, List.append_assoc, List.take_left,
    String.toList_ofList]

namespace Layout

/-- The layout of a text that is split into the given clauses. -/
def ofClauses (text : List Char) (clauses : Clauses) : Layout :=
  let select := Phrase.front .select text clauses.select
  let behindSelect := text.drop select.written.length
  let table := Phrase.front .table behindSelect clauses.table
  let behindTable := behindSelect.drop table.written.length
  let filter? := clauses.filter?.map (Phrase.front .filter behindTable)
  { select, table, filter?
    order? :=
      clauses.order?.map (Phrase.front .order (behindTable.drop (written? filter?).length)) }

/-- **A text is taken apart into its layout.** -/
theorem ofClauses_text {layout : Layout} (sound : layout.Sound) :
    ofClauses layout.text layout.clauses = layout := by
  obtain ⟨select, table, filter?, order?⟩ := layout
  have optional : ∀ {phrase? : Option Phrase} {clause : Clause} (more : List Char),
      (∀ phrase ∈ phrase?, phrase.Sound clause) →
      (phrase?.map fun phrase => String.ofList phrase.text).map
        (Phrase.front clause (written? phrase? ++ more)) = phrase? := by
    intro phrase? clause more soundToo
    cases phrase? with
    | none => rfl
    | some phrase => exact congrArg some ((soundToo phrase rfl).front_written more)
  have filter := optional (written? order?) sound.filter
  have order := optional [] sound.order
  rw [List.append_nil] at order
  simp only [ofClauses, clauses, Layout.text, sound.select.front_written, sound.table.front_written,
    List.drop_left, filter, order]

end Layout

end EntityQuery.Query

import EntityQuery.Proofs.Resolution.Query
import EntityQuery.Proofs.Sample
import EntityQuery.Proofs.SelectList.Calls
import EntityQuery.Proofs.Tokens.Spacing

/-!
# Conditions, token by token

A condition or an order is translated token by token (`Schema.Translates`): a path becomes the
column that it leads to, under the alias of an occurrence, and every other token stays what it is,
literals included.

This holds of the texts as well (`Schema.condition_translates`). What is written for the condition
is read again as tokens, one for each of the query's: neighbours that were apart are not merged, and
no column is divided, as long as the names of the columns are plain texts.
-/

set_option autoImplicit false

namespace EntityQuery

open Registry
open Aliases (Reached Resolved)
open Query (Lexeme MarkSet PlainText IsToken Lexed tokenize)

/-- The alias of an occurrence is an identifier. -/
theorem isIdentifier_aliasName (number : Nat) :
    Query.isIdentifier (aliasName number).toList = true := by
  have digits : ∀ c ∈ (toString number).toList, Query.isWordChar c = true := by
    intro c member
    rw [Nat.toString_eq_repr, Nat.toList_repr] at member
    exact Query.isWordChar_of_isDigit (Nat.isDigit_of_mem_toDigits (by decide) (by decide) member)
  rw [aliasName, String.toList_append]
  exact List.all_eq_true.mpr digits

/-- Texts with a separator of one character between neighbours. -/
theorem toList_intercalate {separator : String} {c : Char} (single : separator.toList = [c])
    (texts : List String) :
    (separator.intercalate texts).toList = Text.joinChars c (texts.map String.toList) := by
  rw [String.toList_intercalate, Query.joinChars_eq_intercalate, single]

/-- Expressions with a separator of one character between neighbours. -/
theorem toList_renderList {separator : String} {c : Char} (single : separator.toList = [c])
    (exprs : List Sql.Expr) :
    (Sql.renderList separator exprs).toList =
      Text.joinChars c (exprs.map fun expr => expr.render.toList) := by
  rw [Sql.renderList, toList_intercalate single, Sql.Expr.renderEach_eq_map, List.map_map]
  rfl

namespace Schema

variable {schema : Schema} {marks : MarkSet} {entityEnd : EntityEnd}

/-- Tokens of a query and the tokens that they become, between two alias tables. A path becomes the
column that it leads to, which is one of the entity of an occurrence; other tokens are kept. -/
inductive Translates (schema : Schema) (entityEnd : EntityEnd) :
    List Lexeme → Aliases → List Lexeme → Aliases → Prop where
  | nil (aliases : Aliases) : Translates schema entityEnd [] aliases [] aliases
  | path {text : String} {aliases middle later : Aliases} {number : Nat} {occurrence : Occurrence}
      {entity : Entity} {column : Column} {source target : List Lexeme}
      (leads : schema.field entityEnd text aliases =
        .ok (.column (.of (aliasName number) column.columnName), middle))
      (occurs : middle.occurrences[number]? = some occurrence)
      (registered : schema.lookup occurrence.entity = some entity)
      (member : column ∈ entity.columns)
      (others : Translates schema entityEnd source middle target later) :
      Translates schema entityEnd (⟨.path, text.toList⟩ :: source) aliases
        (⟨.path, (aliasName number).toList ++ '.' :: column.columnName.toList⟩ :: target) later
  | kept {lexeme : Lexeme} {aliases later : Aliases} {source target : List Lexeme}
      (noPath : lexeme.kind ≠ .path)
      (others : Translates schema entityEnd source aliases target later) :
      Translates schema entityEnd (lexeme :: source) aliases (lexeme :: target) later

/-- There are as many tokens afterwards. -/
theorem Translates.length_eq {source target : List Lexeme} {aliases later : Aliases}
    (translates : schema.Translates entityEnd source aliases target later) :
    target.length = source.length := by
  induction translates with
  | nil => rfl
  | path _ _ _ _ _ ih => rw [List.length_cons, List.length_cons, ih]
  | kept _ _ ih => rw [List.length_cons, List.length_cons, ih]

/-- Tokens become tokens. -/
theorem Translates.isToken {source target : List Lexeme} {aliases later : Aliases}
    (plain : ∀ entity ∈ schema.entities, ∀ column ∈ entity.columns,
      PlainText marks column.columnName.toList)
    (translates : schema.Translates entityEnd source aliases target later)
    (tokens : ∀ lexeme ∈ source, IsToken marks lexeme) :
    ∀ lexeme ∈ target, IsToken marks lexeme := by
  induction translates with
  | nil => exact tokens
  | @path _ _ _ _ number _ entity column _ _ _ _ registered member _ ih =>
      have name := plain entity (mem_of_lookup registered) column member
      have identifier := isIdentifier_aliasName number
      have whole := (name.behind_dot identifier).isToken (by simp)
      rw [Query.kindOfWord_of_isIdentifier identifier (by rintro _ ⟨⟩; rfl), if_neg nofun] at whole
      intro lexeme inTarget
      rcases List.mem_cons.mp inTarget with rfl | later
      · exact whole
      · exact ih (fun other inSource => tokens other (List.mem_cons_of_mem _ inSource)) lexeme later
  | kept _ _ ih =>
      intro lexeme inTarget
      rcases List.mem_cons.mp inTarget with rfl | later
      · exact tokens lexeme List.mem_cons_self
      · exact ih (fun other inSource => tokens other (List.mem_cons_of_mem _ inSource)) lexeme later

/-- The tokens of a clause are translated, and what is written for each is the token that it
becomes. -/
theorem tokens_translates {tokens : List Query.Token} {aliases later : Aliases}
    {exprs : List Sql.Expr} (reached : Reached schema aliases)
    (succeeds : schema.tokens entityEnd tokens aliases = .ok (exprs, later)) :
    ∃ target, schema.Translates entityEnd (tokens.map Query.Token.toLexeme) aliases target later ∧
      exprs.map (fun expr => expr.render.toList) = target.map Lexeme.text := by
  induction tokens generalizing aliases exprs with
  | nil =>
      cases succeeds
      exact ⟨[], .nil _, rfl⟩
  | cons token rest ih =>
      obtain ⟨expr, middle, more, first, remaining, rfl⟩ := tokens_cons_eq_ok_iff.mp succeeds
      have resolved := token_resolved reached first
      obtain ⟨target, translates, written⟩ := ih (resolved.reached reached) remaining
      by_cases isPath : token.kind = .path
      · rw [Registry.token, if_pos isPath] at first
        obtain ⟨reference, rfl⟩ := exists_column_of_field first
        obtain ⟨_, occurrence, entity, column, rfl, found, registered, member⟩ :=
          resolved.typed reference List.mem_cons_self
        obtain ⟨number, occurs, rfl⟩ :=
          Aliases.mem_entries_iff.mp (Aliases.lookup_entries_iff.mp found)
        let becomes : Lexeme :=
          ⟨.path, (aliasName number).toList ++ '.' :: column.columnName.toList⟩
        refine ⟨becomes :: target, ?_, ?_⟩
        · rw [List.map_cons, Query.Token.toLexeme, isPath]
          exact .path first occurs registered member translates
        · rw [List.map_cons, List.map_cons, written]
          simp [becomes, Sql.Expr.render, Sql.ColumnRef.render, Sql.ColumnRef.of]
      · rw [Registry.token, if_neg isPath] at first
        cases first
        exact ⟨token.toLexeme :: target, .kept isPath translates,
          congrArg (token.lexeme.toList :: ·) written⟩

/-- **A condition is translated token by token, and nothing else changes.** What is written for it,
with spaces between the expressions, is read as one token for each token of the query. -/
theorem condition_translates {text : String} {aliases later : Aliases} {exprs : List Sql.Expr}
    (plain : ∀ entity ∈ schema.entities, ∀ column ∈ entity.columns,
      PlainText marks column.columnName.toList)
    (reached : Reached schema aliases)
    (succeeds : schema.condition marks entityEnd (some text) aliases = .ok (exprs, later)) :
    ∃ source target, tokenize marks text = .ok source ∧
      tokenize marks (Sql.renderList " " exprs) = .ok target ∧ target.length = source.length ∧
        schema.Translates entityEnd (source.map Query.Token.toLexeme) aliases
          (target.map Query.Token.toLexeme) later := by
  obtain ⟨source, read, resolves⟩ := ok_of_bind succeeds
  have read := ok_of_mapError read
  obtain ⟨lexemes, translates, written⟩ := tokens_translates reached resolves
  have tokens := translates.isToken plain (Query.lexed_of_tokensFrom read).isToken
  have lexed := Query.lexed_spaced tokens
  obtain ⟨target, readAgain, rfl⟩ := Query.exists_tokens_of_lexed lexed 0
  refine ⟨source, target, read, ?_, ?_, translates⟩
  · rw [tokenize, toList_renderList (c := ' ') rfl, written]
    exact readAgain
  · simpa only [List.length_map] using translates.length_eq

/-- A path leads to a table of its own, and marks, a number and a literal with a quotation mark in
it are kept. -/
theorem condition_translates_shops :
    ∃ aliases exprs later, Reached Sample.schema aliases ∧
      Sample.schema.condition .filter .identifier
        (some "s.area.name<>'it''s' and (s.id+1)>=2") aliases =
        .ok (exprs, later) ∧
      Sql.renderList " " exprs = "t1.name <> 'it''s' and ( t0.id + 1 ) >= 2" ∧
      ∃ source target, tokenize .filter "s.area.name<>'it''s' and (s.id+1)>=2" = .ok source ∧
        tokenize .filter (Sql.renderList " " exprs) = .ok target ∧ target.length = source.length ∧
          Sample.schema.Translates .identifier (source.map Query.Token.toLexeme) aliases
            (target.map Query.Token.toLexeme) later := by
  have shown : (Sample.schema.condition .filter .identifier
      (some "s.area.name<>'it''s' and (s.id+1)>=2")
      (Aliases.empty.bind "Shop" (some "s")).2).toOption.map
        (fun result => Sql.renderList " " result.1) =
        some "t1.name <> 'it''s' and ( t0.id + 1 ) >= 2" := by
    decide +kernel
  obtain ⟨⟨exprs, later⟩, succeeds, text⟩ := exists_ok_of_shown shown
  have reached : Reached Sample.schema (Aliases.empty.bind Sample.shop.name (some "s")).2 :=
    .entry .empty rfl (some "s")
  exact ⟨_, exprs, later, reached, succeeds, text,
    condition_translates (by decide +kernel) reached succeeds⟩

end Schema

end EntityQuery

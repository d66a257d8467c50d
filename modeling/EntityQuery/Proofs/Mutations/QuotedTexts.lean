import EntityQuery.Proofs.Mutations.Literals
import EntityQuery.Proofs.Tokens.Lexer
import EntityQuery.Proofs.Tokens.Literals
import Mathlib.Algebra.Group.Nat.Even
import Mathlib.Data.List.Induction

/-!
# Texts between quotation marks

A text or a date is written between quotation marks as it is, so the marks in it are read with those
around it. A mark stands in a text in pairs only if every maximal run of marks has an even length
(`doubled_iff_evenRuns`). Between marks such a text is one literal; of any other the literal ends
before the last mark, or does not end (`tokensFrom_enclosed`, `one_lt_length_of_enclosed`).

The main statement is `Lexer.read_quoted_iff`: a written value is read as one literal exactly if its
marks stand in runs of even length.
-/

set_option autoImplicit false

namespace EntityQuery.Query

open Text (isBlank octets)

variable {marks : MarkSet} {quote c : Char} {text rest after : List Char}

/-! ## Runs of quotation marks -/

/-- Every maximal run of a character in a text has an even length: what stands before the run does
not end with the character, and what stands behind it does not begin with it. -/
def EvenRuns (c : Char) (text : List Char) : Prop :=
  ∀ before after count, text = before ++ List.replicate count c ++ after →
    before.getLast? ≠ some c → after.head? ≠ some c → Even count

/-- Pairs of a mark make runs of even length. -/
theorem Doubled.evenRuns (doubled : Doubled quote text) : EvenRuns quote text := by
  intro before after count split notBefore notAfter
  induction doubled generalizing before count with
  | nil =>
      obtain ⟨-, rfl, -⟩ : before = [] ∧ count = 0 ∧ after = [] := by simpa using split.symm
      exact Even.zero
  | @other c rest differs _ ih =>
      cases before with
      | nil =>
          cases count with
          | zero => exact Even.zero
          | succ count => exact absurd (List.cons.inj split).1 differs
      | cons first others =>
          obtain ⟨rfl, behind⟩ := List.cons.inj split
          refine ih others count behind ?_
          intro last
          rw [List.getLast?_cons, last] at notBefore
          exact notBefore rfl
  | @pair rest _ ih =>
      -- a run starts with the pair or behind it: between its marks a run would not be maximal
      cases before with
      | nil =>
          match count with
          | 0 => exact absurd (congrArg List.head? split).symm notAfter
          | 1 => exact absurd (congrArg List.head? (List.cons.inj split).2).symm notAfter
          | count + 2 =>
              have behind : rest = [] ++ List.replicate count quote ++ after :=
                (List.cons.inj (List.cons.inj split).2).2
              exact (ih [] count behind nofun).add ⟨1, rfl⟩
      | cons first others =>
          obtain ⟨rfl, remaining⟩ := List.cons.inj split
          cases others with
          | nil => exact absurd rfl notBefore
          | cons second others =>
              obtain ⟨rfl, behind⟩ := List.cons.inj remaining
              refine ih others count behind ?_
              intro last
              rw [List.getLast?_cons, List.getLast?_cons, last] at notBefore
              exact notBefore rfl

/-- The runs behind another character. -/
theorem EvenRuns.behind (even : EvenRuns quote (c :: text)) (differs : c ≠ quote) :
    EvenRuns quote text := by
  intro before after count split notBefore notAfter
  refine even (c :: before) after count (congrArg (c :: ·) split) ?_ notAfter
  cases before with
  | nil => simpa using differs
  | cons first others => rwa [List.getLast?_cons_cons]

/-- The runs behind a pair: one that follows it at once is shorter by two than before. -/
theorem EvenRuns.behind_pair (even : EvenRuns quote (quote :: quote :: text)) :
    EvenRuns quote text := by
  intro before after count split notBefore notAfter
  cases before with
  | nil =>
      have longer := even [] after (count + 2) (congrArg (quote :: quote :: ·) split) nofun notAfter
      exact (Nat.even_add.mp longer).mpr ⟨1, rfl⟩
  | cons first others =>
      refine even (quote :: quote :: first :: others) after count
        (congrArg (quote :: quote :: ·) split) ?_ notAfter
      rwa [List.getLast?_cons_cons, List.getLast?_cons_cons]

/-- A mark that begins a run of even length is followed by another. -/
theorem EvenRuns.head?_of_mark (even : EvenRuns quote (quote :: text)) :
    text.head? = some quote := by
  by_contra alone
  exact Nat.not_even_one (even [] text 1 rfl nofun alone)

/-- Runs of even length are made of pairs. -/
theorem EvenRuns.doubled : ∀ {text : List Char}, EvenRuns quote text → Doubled quote text
  | [], _ => .nil
  | [c], even => by
      by_cases same : c = quote
      · obtain rfl := same.symm
        exact nomatch even.head?_of_mark
      · exact .other same .nil
  | c :: next :: rest, even => by
      by_cases same : c = quote
      · obtain rfl := same.symm
        obtain rfl : quote = next := (Option.some.inj even.head?_of_mark).symm
        exact .pair (EvenRuns.doubled even.behind_pair)
      · exact .other same (EvenRuns.doubled (even.behind same))

/-- **A mark stands in pairs only if its runs have even lengths.** -/
theorem doubled_iff_evenRuns : Doubled quote text ↔ EvenRuns quote text :=
  ⟨Doubled.evenRuns, EvenRuns.doubled⟩

/-! ## A text between two marks -/

/-- **A text with its marks in pairs is one literal between marks.** -/
theorem tokensFrom_enclosed (marks : MarkSet) (place : Nat) (isMark : isQuote quote = true)
    (doubled : Doubled quote text) :
    tokensFrom marks place (quote :: (text ++ [quote])) =
      .ok [.at .literal (quote :: (text ++ [quote])) place] := by
  have first : FirstToken marks ⟨.literal, quote :: (text ++ [quote])⟩ [] := by
    refine .literal isMark ?_
    rw [List.append_nil]
    exact doubled.literalRest? nofun
  have whole :=
    tokensFrom_token first (tokensFrom_nil marks (place + octets (quote :: (text ++ [quote]))))
  rwa [List.append_nil] at whole

/-- A text without tokens is blank. -/
theorem Lexed.blank_of_nil (lexed : Lexed marks text []) : ∀ c ∈ text, isBlank c = true := by
  generalize none_ : ([] : List Lexeme) = lexemes at lexed
  induction lexed with
  | nil => exact nofun
  | blank blank _ ih => exact List.forall_mem_cons.mpr ⟨blank, ih none_⟩
  | token => cases none_

/-- A token that a quotation mark begins is a literal. -/
theorem FirstToken.literal_of_quote {lexeme : Lexeme} (first : FirstToken marks lexeme after)
    (isMark : isQuote quote = true) (begins : lexeme.text = quote :: rest) :
    Query.literalRest? quote (rest ++ after) = some (rest, after) := by
  cases first with
  | literal _ closes =>
      cases begins
      exact closes
  | mark _ noQuote _ =>
      cases begins
      rw [isMark] at noQuote
      cases noQuote
  | word _ ends =>
      obtain rfl := begins
      rw [(visible_of_wordRest ends quote (List.mem_cons_self ..)).2] at isMark
      cases isMark

/-- **A text with a mark that stands alone is more than one token between marks**, if it has tokens
there at all: the literal ends at that mark, and behind it the last mark is left. -/
theorem one_lt_length_of_enclosed {lexemes : List Lexeme} (isMark : isQuote quote = true)
    (lexed : Lexed marks (quote :: (text ++ [quote])) lexemes) (alone : ¬ Doubled quote text) :
    1 < lexemes.length := by
  generalize whole : quote :: (text ++ [quote]) = enclosed at lexed
  cases lexed with
  | nil => cases whole
  | blank blank _ =>
      obtain ⟨rfl, -⟩ := List.cons.inj whole
      rw [isBlank_of_isQuote isMark] at blank
      cases blank
  | @token lexeme after others first lexed =>
      obtain ⟨d, body, begins, -⟩ := first.begins
      rw [begins, List.cons_append] at whole
      obtain ⟨rfl, split⟩ := List.cons.inj whole
      have closes := first.literal_of_quote isMark begins
      obtain ⟨inner, rfl, doubled⟩ := exists_doubled_of_literalRest? closes
      cases others with
      | cons => simp
      | nil =>
          -- what is left behind the literal has the last mark, unless the literal is all of the
          -- text
          cases after using List.reverseRecOn with
          | nil =>
              rw [List.append_nil] at split
              exact absurd ((List.append_inj' split rfl).1 ▸ doubled) alone
          | append_singleton front last =>
              rw [← List.append_assoc] at split
              obtain ⟨-, same⟩ := List.append_inj' split rfl
              cases same
              have blank := lexed.blank_of_nil quote (by simp)
              rw [isBlank_of_isQuote isMark] at blank
              cases blank

/-! ## Written values -/

/-- **A value of a column of texts or dates is written as one literal** if the single quotation
marks in it stand in runs of even length. Otherwise what is written has a literal that does not end,
or more than one token. -/
theorem Lexer.read_quoted_iff (lexer : Lexer) {column : Column} {value : Value} {text : String}
    (valued : value ≠ .null) (kind : column.kind = .string ∨ column.kind = .date)
    (written : (column.literal value).render = text) :
    ((lexer.read text).1 = .ok [⟨.literal, text, 0, octets text.toList⟩] ↔
      EvenRuns '\'' value.text.toList) ∧
    (¬ EvenRuns '\'' value.text.toList →
      (∃ problem, (lexer.read text).1 = .error problem) ∨
        ∃ tokens, (lexer.read text).1 = .ok tokens ∧ 1 < tokens.length) := by
  have enclosed : text.toList = '\'' :: (value.text.toList ++ ['\'']) := by
    rw [← written, Column.literal_quoted valued kind, Sql.Expr.render]
    simp
  have others : ¬ Doubled '\'' value.text.toList → ∀ tokens, (lexer.read text).1 = .ok tokens →
      1 < tokens.length := by
    intro alone tokens succeeds
    rw [read_eq, tokenize, enclosed] at succeeds
    have more := one_lt_length_of_enclosed rfl (lexed_of_tokensFrom succeeds) alone
    rwa [List.length_map] at more
  rw [← doubled_iff_evenRuns]
  refine ⟨⟨fun one => ?_, fun doubled => ?_⟩, fun alone => ?_⟩
  · by_contra alone
    exact absurd (others alone _ one) (lt_irrefl 1)
  · rw [read_eq, tokenize, enclosed, tokensFrom_enclosed _ _ rfl doubled, Token.at, ← enclosed,
      String.ofList_toList, Nat.zero_add]
  · cases outcome : (lexer.read text).1 with
    | error problem => exact .inl ⟨problem, rfl⟩
    | ok tokens => exact .inr ⟨tokens, rfl, others alone tokens outcome⟩

/-- An apostrophe in a name has to be doubled. -/
theorem Lexer.read_quoted_iff_name :
    ((Lexer.new .filter).read "'o''hara'").1 = .ok [⟨.literal, "'o''hara'", 0, 9⟩] ∧
      EvenRuns '\'' "o''hara".toList ∧ ¬ EvenRuns '\'' "o'hara".toList ∧
      ((∃ problem, ((Lexer.new .filter).read "'o'hara'").1 = .error problem) ∨
        ∃ tokens, ((Lexer.new .filter).read "'o'hara'").1 = .ok tokens ∧ 1 < tokens.length) := by
  let name : Column := ⟨"name", none, .string, true, none⟩
  have even : EvenRuns '\'' "o''hara".toList := by
    refine doubled_iff_evenRuns.mp (.other (by decide) (.pair ?_))
    exact .other (by decide) (.other (by decide) (.other (by decide) (.other (by decide) .nil)))
  have odd : ¬ EvenRuns '\'' "o'hara".toList := fun even =>
    Nat.not_even_one (even "o".toList "hara".toList 1 rfl (by decide) (by decide))
  have written : (name.literal (.string "o''hara")).render = "'o''hara'" := by decide
  have writtenOdd : (name.literal (.string "o'hara")).render = "'o'hara'" := by decide
  have doubled := Lexer.read_quoted_iff (Lexer.new .filter) Value.noConfusion (.inl rfl) written
  have single := Lexer.read_quoted_iff (Lexer.new .filter) Value.noConfusion (.inl rfl) writtenOdd
  exact ⟨doubled.1.mpr even, even, odd, single.2 odd⟩

end EntityQuery.Query

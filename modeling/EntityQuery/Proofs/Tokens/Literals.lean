import EntityQuery.Proofs.SelectList.Literals
import EntityQuery.Proofs.Tokens.Lexing
import Mathlib.Data.List.Basic

/-!
# Literals of tokens and literals of texts

A literal of a token has its quotation mark doubled, and a scanner that only carries the mark that
is open closes a literal at each of the two marks and opens one. Both are outside literals at the
same places, for of a pair the second mark opens at once what the first has closed
(`Doubled.afterText_eq`).

So a text is read as tokens if and only if it leaves no literal open (`exists_tokensFrom_iff`).
Otherwise the literal that is reported is the one that opens where none is open, by a mark that is
not the second of a pair, and that no mark closes (`tokensFrom_eq_error_iff`).
-/

set_option autoImplicit false

namespace EntityQuery.Query

open Text (isBlank octets)

variable {marks : MarkSet} {quote : Char} {text before after rest : List Char}

/-! ## Quotation marks in pairs -/

/-- Pairs of its own mark leave a literal open. -/
theorem Doubled.afterText_eq (isMark : isQuote quote = true) (doubled : Doubled quote text) :
    afterText (some quote) text = some quote := by
  induction doubled with
  | nil => rfl
  | @other c rest differs _ ih =>
      rw [afterText, List.foldl_cons, afterChar_of_ne differs]
      exact ih
  | @pair rest _ ih =>
      rw [afterText, List.foldl_cons, List.foldl_cons, afterChar_self, afterChar_of_isQuote isMark]
      exact ih

/-- A place outside literals behind the start of a literal divides a pair. -/
theorem Doubled.divided {c : Char} (isMark : isQuote quote = true) (doubled : Doubled quote text)
    (split : text = before ++ c :: after) (outside : afterText (some quote) before = none) :
    c = quote ∧ before.getLast? = some quote := by
  induction doubled generalizing before with
  | nil => exact absurd (List.append_eq_nil_iff.mp split.symm).2 nofun
  | @other d rest differs _ ih =>
      cases before with
      | nil => exact nomatch outside
      | cons first others =>
          obtain ⟨rfl, remaining⟩ := List.cons.inj split
          rw [afterText, List.foldl_cons, afterChar_of_ne differs] at outside
          obtain ⟨same, last⟩ := ih remaining outside
          refine ⟨same, ?_⟩
          rw [List.getLast?_cons, last]
          rfl
  | @pair rest _ ih =>
      cases before with
      | nil => exact nomatch outside
      | cons first others =>
          obtain ⟨rfl, remaining⟩ := List.cons.inj split
          cases others with
          | nil => exact ⟨(List.cons.inj remaining).1.symm, rfl⟩
          | cons second others =>
              obtain ⟨rfl, behind⟩ := List.cons.inj remaining
              rw [afterText, List.foldl_cons, List.foldl_cons, afterChar_self,
                afterChar_of_isQuote isMark] at outside
              obtain ⟨same, last⟩ := ih behind outside
              refine ⟨same, ?_⟩
              rw [List.getLast?_cons, List.getLast?_cons, last]
              rfl

/-! ## Tokens close their literals -/

/-- No mark has a blank or a quotation mark. -/
theorem MarkSet.visible {mark : List Char} (listed : mark ∈ marks.marks) :
    ∀ c ∈ mark, isBlank c = false ∧ isQuote c = false := by
  have all : (marks.marks.all fun mark => mark.all fun c => !isBlank c && !isQuote c) = true := by
    cases marks <;> decide
  intro c member
  simpa using List.all_eq_true.mp (List.all_eq_true.mp all mark listed) c member

/-- No word has a blank or a quotation mark. -/
theorem visible_of_wordRest {word : List Char}
    (ends : wordRest marks (word ++ after) = (word, after)) :
    ∀ c ∈ word, isBlank c = false ∧ isQuote c = false := by
  intro c member
  obtain ⟨front, rest, split⟩ := List.append_of_mem member
  have goesOn := (wordRest_eq_iff.mp ends).1 front (c :: rest) split nofun
  rw [List.cons_append, endsWord_cons, Bool.or_eq_false_iff, Bool.or_eq_false_iff] at goesOn
  exact goesOn.1

theorem any_isQuote_of_visible (visible : ∀ c ∈ text, isBlank c = false ∧ isQuote c = false) :
    text.any isQuote = false := by
  rw [List.any_eq_false]
  intro c member isMark
  rw [(visible c member).2] at isMark
  cases isMark

/-- **A token leaves no literal open.** -/
theorem FirstToken.closed {lexeme : Lexeme} (first : FirstToken marks lexeme after) :
    afterText none lexeme.text = none := by
  cases first with
  | @literal quote body _ opens closes =>
      obtain ⟨inner, rfl, doubled⟩ := exists_doubled_of_literalRest? closes
      have last : afterText (some quote) [quote] = none := afterChar_self quote
      calc afterText none (quote :: (inner ++ [quote]))
          = afterText (some quote) (inner ++ [quote]) := by
            rw [afterText, List.foldl_cons, afterChar_of_isQuote opens]
            rfl
        _ = afterText (some quote) [quote] := by
            rw [afterText_append, doubled.afterText_eq opens]
        _ = none := last
  | mark _ _ found =>
      exact afterText_none
        (any_isQuote_of_visible (MarkSet.visible (MarkSet.mem_of_markAt? found).1))
  | word _ ends => exact afterText_none (any_isQuote_of_visible (visible_of_wordRest ends))

/-- A text that is read as tokens leaves no literal open. -/
theorem Lexed.closed {lexemes : List Lexeme} (lexed : Lexed marks text lexemes) :
    afterText none text = none := by
  induction lexed with
  | nil => rfl
  | blank isBlank _ ih =>
      rw [afterText, List.foldl_cons, afterChar_of_isBlank isBlank]
      exact ih
  | token first _ ih => rw [afterText_append, first.closed, ih]

/-! ## Literals that are not closed -/

/-- A literal with the quotation mark opens behind a text: no literal is open there, and the mark is
not the second of a pair. -/
structure Opens (before : List Char) (quote : Char) : Prop where
  isMark : isQuote quote = true
  outside : afterText none before = none
  notSecond : before.getLast? ≠ some quote

/-- A text does not close the literal that opens behind its first part: the mark of the literal
stands there in pairs only. -/
def LeavesOpen (text before : List Char) : Prop :=
  ∃ quote rest, text = before ++ quote :: rest ∧ Opens before quote ∧ Doubled quote rest

/-- What is not closed is open at the end. -/
theorem LeavesOpen.afterText_ne (leaves : LeavesOpen text before) : afterText none text ≠ none := by
  obtain ⟨quote, rest, rfl, opens, doubled⟩ := leaves
  have remains := doubled.afterText_eq opens.isMark
  rw [afterText] at remains
  rw [afterText_append, opens.outside, afterText, List.foldl_cons,
    afterChar_of_isQuote opens.isMark, remains]
  exact Option.some_ne_none _

/-- What stands before the start of a literal that is not closed is no longer than what stands
before another such start. -/
theorem LeavesOpen.length_le {other : List Char} (leaves : LeavesOpen text before)
    (leavesToo : LeavesOpen text other) : other.length ≤ before.length := by
  obtain ⟨quote, rest, rfl, opens, doubled⟩ := leaves
  obtain ⟨mark, left, split, opensToo, _⟩ := leavesToo
  rcases List.append_eq_append_iff.mp split with ⟨inner, rfl, same⟩ | ⟨inner, rfl, _⟩
  · cases inner with
    | nil => simp
    | cons c inner =>
        -- the place of the later start would divide a pair of the first literal
        obtain ⟨rfl, behind⟩ := List.cons.inj same
        have outside := opensToo.outside
        rw [afterText_append, opens.outside, afterText, List.foldl_cons,
          afterChar_of_isQuote opens.isMark] at outside
        obtain ⟨rfl, last⟩ := doubled.divided opens.isMark behind outside
        refine absurd ?_ opensToo.notSecond
        rw [List.getLast?_append_of_ne_nil _ (List.cons_ne_nil _ _), List.getLast?_cons, last]
        rfl
  · rw [List.length_append]
    omega

/-- **At most one literal of a text is not closed.** -/
theorem LeavesOpen.unique {other : List Char} (leaves : LeavesOpen text before)
    (leavesToo : LeavesOpen text other) : before = other := by
  have same : before.length = other.length :=
    Nat.le_antisymm (leavesToo.length_le leaves) (leaves.length_le leavesToo)
  obtain ⟨_, _, split, _⟩ := leaves
  obtain ⟨_, _, splitToo, _⟩ := leavesToo
  exact (List.append_inj (split.symm.trans splitToo) same).1

/-- A literal that is not closed behind a token, or a blank, is not closed in the whole text. -/
theorem LeavesOpen.behind {front : List Char} (leaves : LeavesOpen after before)
    (closed : afterText none front = none)
    (apart : ∀ quote, isQuote quote = true → front.getLast? = some quote →
      after.head? ≠ some quote) :
    LeavesOpen (front ++ after) (front ++ before) := by
  obtain ⟨quote, rest, rfl, opens, doubled⟩ := leaves
  refine ⟨quote, rest, (List.append_assoc _ _ _).symm, ⟨opens.isMark, ?_, ?_⟩, doubled⟩
  · rw [afterText_append, closed, opens.outside]
  · cases before with
    | nil =>
        rw [List.append_nil]
        exact fun last => apart quote opens.isMark last rfl
    | cons c others =>
        rw [List.getLast?_append_of_ne_nil _ (List.cons_ne_nil _ _)]
        exact opens.notSecond

/-- The last character of a token is no quotation mark that follows it too. -/
theorem FirstToken.apart {lexeme : Lexeme} (first : FirstToken marks lexeme after) :
    ∀ quote, isQuote quote = true → lexeme.text.getLast? = some quote →
      after.head? ≠ some quote := by
  intro quote isMark last
  have notVisible : ∀ {text : List Char}, (∀ c ∈ text, isBlank c = false ∧ isQuote c = false) →
      text.getLast? = some quote → after.head? ≠ some quote := by
    intro text visible last
    rw [(visible quote (List.mem_of_getLast? last)).2] at isMark
    cases isMark
  cases first with
  | @literal mark body _ opens closes =>
      have alone := head?_ne_of_literalRest? closes
      obtain ⟨inner, rfl, _⟩ := exists_doubled_of_literalRest? closes
      have same : (mark :: (inner ++ [mark])).getLast? = some mark := by
        rw [← List.cons_append, List.getLast?_concat]
      rw [same] at last
      exact Option.some.inj last ▸ alone
  | mark _ _ found => exact notVisible (MarkSet.visible (MarkSet.mem_of_markAt? found).1) last
  | word _ ends => exact notVisible (visible_of_wordRest ends) last

/-- The literal that is reported is not closed. -/
theorem Scanned.leavesOpen {place : Nat} {outcome : Except TextError (List Token)}
    {problem : TextError} (scanned : Scanned marks place text outcome)
    (fails : outcome = .error problem) :
    ∃ before, LeavesOpen text before ∧ problem = .unterminatedLiteral (place + octets before) := by
  induction scanned with
  | nil => cases fails
  | @blank place c text outcome blank _ ih =>
      obtain ⟨before, leaves, rfl⟩ := ih fails
      have behind : LeavesOpen ([c] ++ text) ([c] ++ before) := by
        refine leaves.behind (afterChar_of_isBlank blank) ?_
        intro quote isMark last
        obtain rfl : c = quote := Option.some.inj last
        rw [isBlank_of_isQuote isMark] at blank
        cases blank
      refine ⟨c :: before, behind, ?_⟩
      rw [octets, Nat.add_assoc]
  | @unclosed quote rest place opens doubled =>
      cases fails
      exact ⟨[], ⟨quote, rest, rfl, ⟨opens, rfl, Option.some_ne_none _ ∘ Eq.symm⟩, doubled⟩, rfl⟩
  | @token place lexeme after outcome first _ ih =>
      have failsToo : outcome = .error problem := by
        cases outcome with
        | error other =>
            cases fails
            rfl
        | ok tokens => cases fails
      obtain ⟨before, leaves, rfl⟩ := ih failsToo
      refine ⟨lexeme.text ++ before, leaves.behind first.closed first.apart, ?_⟩
      rw [Text.octets_append, Nat.add_assoc]

/-- **A text has tokens if and only if it leaves no literal open.** -/
theorem exists_tokensFrom_iff (marks : MarkSet) (place : Nat) (text : List Char) :
    (∃ tokens, tokensFrom marks place text = .ok tokens) ↔ afterText none text = none := by
  constructor
  · rintro ⟨tokens, succeeds⟩
    exact (lexed_of_tokensFrom succeeds).closed
  · intro closed
    cases outcome : tokensFrom marks place text with
    | ok tokens => exact ⟨tokens, rfl⟩
    | error problem =>
        obtain ⟨_, leaves, _⟩ := (scanned_tokensFrom marks place text).leavesOpen outcome
        exact absurd closed leaves.afterText_ne

/-- **The literal that is reported is the one that is not closed.** -/
theorem tokensFrom_eq_error_iff {place : Nat} {problem : TextError} :
    tokensFrom marks place text = .error problem ↔
      ∃ before, LeavesOpen text before ∧
        problem = .unterminatedLiteral (place + octets before) := by
  constructor
  · exact (scanned_tokensFrom marks place text).leavesOpen
  · rintro ⟨before, leaves, rfl⟩
    cases outcome : tokensFrom marks place text with
    | ok tokens => exact absurd (lexed_of_tokensFrom outcome).closed leaves.afterText_ne
    | error other =>
        obtain ⟨_, leavesToo, rfl⟩ := (scanned_tokensFrom marks place text).leavesOpen outcome
        rw [leaves.unique leavesToo]

end EntityQuery.Query

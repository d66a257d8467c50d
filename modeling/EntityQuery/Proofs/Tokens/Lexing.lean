import EntityQuery.Query.Token
import EntityQuery.Proofs.Outcome

/-!
# Readings of a text as tokens

What stands at the start of a text is read as a token together with what follows it (`FirstToken`):
a literal ends where its quotation mark stands alone, a mark is the first listed that fits, and a
word goes on up to a blank, a quotation mark or a mark. A text is read as tokens if each of them,
behind blanks, is read so at the start of what is left (`Lexed`).

A text is scanned from its start (`Scanned`): either all of it is read, or a literal that does not
end, in which its quotation mark stands in pairs only (`Doubled`), is reported. The tokens of a text
are those that it is read as (`lexed_of_tokensFrom`), and every text that is read as tokens has them
(`exists_tokens_of_lexed`).
-/

set_option autoImplicit false

namespace EntityQuery

namespace Query

open Text (isBlank octets)

/-- What a token says, apart from its place. -/
structure Lexeme where
  kind : TokenKind
  text : List Char
  deriving DecidableEq, Repr

/-- What the token says. -/
def Token.toLexeme (token : Token) : Lexeme :=
  ⟨token.kind, token.lexeme.toList⟩

variable {marks : MarkSet} {text after : List Char} {lexemes : List Lexeme}

/-- A quotation mark stands in a text in pairs only. -/
inductive Doubled (quote : Char) : List Char → Prop where
  | nil : Doubled quote []
  | other {c : Char} {rest : List Char} (differs : c ≠ quote) (others : Doubled quote rest) :
      Doubled quote (c :: rest)
  | pair {rest : List Char} (others : Doubled quote rest) : Doubled quote (quote :: quote :: rest)

/-- A token is read at the start of a text, where `after` follows it. -/
inductive FirstToken (marks : MarkSet) : Lexeme → List Char → Prop where
  | literal {quote : Char} {body after : List Char} (opens : isQuote quote = true)
      (closes : literalRest? quote (body ++ after) = some (body, after)) :
      FirstToken marks ⟨.literal, quote :: body⟩ after
  | mark {c : Char} {rest after : List Char} (notBlank : isBlank c = false)
      (noQuote : isQuote c = false)
      (found : marks.markAt? (c :: rest ++ after) = some (c :: rest)) :
      FirstToken marks ⟨.mark, c :: rest⟩ after
  | word {word after : List Char} (notEmpty : word ≠ [])
      (ends : wordRest marks (word ++ after) = (word, after)) :
      FirstToken marks ⟨kindOfWord word, word⟩ after

/-- A text is read as tokens, with blanks around them. -/
inductive Lexed (marks : MarkSet) : List Char → List Lexeme → Prop where
  | nil : Lexed marks [] []
  | blank {c : Char} {text : List Char} {lexemes : List Lexeme} (blank : isBlank c = true)
      (others : Lexed marks text lexemes) : Lexed marks (c :: text) lexemes
  | token {lexeme : Lexeme} {after : List Char} {lexemes : List Lexeme}
      (first : FirstToken marks lexeme after) (others : Lexed marks after lexemes) :
      Lexed marks (lexeme.text ++ after) (lexeme :: lexemes)

/-! ## Literals, marks and words -/

/-- A literal goes on over quotation marks in pairs, and ends with one that no other follows. -/
theorem Doubled.literalRest? {quote : Char} {inner : List Char} (doubled : Doubled quote inner)
    (alone : after.head? ≠ some quote) :
    Query.literalRest? quote (inner ++ quote :: after) = some (inner ++ [quote], after) := by
  induction doubled with
  | nil =>
      cases after with
      | nil => simp [Query.literalRest?]
      | cons next rest =>
          rw [List.head?_cons, Ne, Option.some.injEq] at alone
          simp [Query.literalRest?, alone]
  | other differs _ ih =>
      rw [List.cons_append, Query.literalRest?.eq_def]
      simp only [if_neg differs, ih, Option.map_some, List.cons_append]
  | pair _ ih =>
      rw [List.cons_append, List.cons_append, Query.literalRest?]
      simp only [if_true, ih, Option.map_some, List.cons_append]

/-- **A literal ends with the first of its quotation marks that stands alone**: before this mark
they stand in pairs, and none follows it. -/
theorem literalRest?_eq_some_iff {quote : Char} {body : List Char} :
    literalRest? quote text = some (body, after) ↔
      ∃ inner, body = inner ++ [quote] ∧ Doubled quote inner ∧ text = body ++ after ∧
        after.head? ≠ some quote := by
  constructor
  · intro found
    fun_induction Query.literalRest? quote text generalizing body after with
    | case1 => cases found
    | case2 =>
        cases found
        exact ⟨[], rfl, .nil, rfl, (Option.some_ne_none quote).symm⟩
    | case3 rest ih =>
        obtain ⟨⟨inner, left⟩, inside, same⟩ := Option.map_eq_some_iff.mp found
        cases same
        obtain ⟨front, rfl, doubled, rfl, alone⟩ := ih inside
        exact ⟨quote :: quote :: front, rfl, .pair doubled, rfl, alone⟩
    | case4 next after differs =>
        cases found
        refine ⟨[], rfl, .nil, rfl, ?_⟩
        rw [List.head?_cons, Ne, Option.some.injEq]
        exact differs
    | case5 c rest differs ih =>
        obtain ⟨⟨inner, left⟩, inside, same⟩ := Option.map_eq_some_iff.mp found
        cases same
        obtain ⟨front, rfl, doubled, rfl, alone⟩ := ih inside
        exact ⟨c :: front, rfl, .other differs doubled, rfl, alone⟩
  · rintro ⟨inner, rfl, doubled, rfl, alone⟩
    rw [List.append_assoc]
    exact doubled.literalRest? alone

/-- A literal and what follows it are the whole text. -/
theorem append_of_literalRest? {quote : Char} {body : List Char}
    (found : literalRest? quote text = some (body, after)) : text = body ++ after := by
  obtain ⟨_, _, _, whole, _⟩ := literalRest?_eq_some_iff.mp found
  exact whole

/-- A literal ends with its quotation mark, and has no other that stands alone. -/
theorem exists_doubled_of_literalRest? {quote : Char} {body : List Char}
    (found : literalRest? quote text = some (body, after)) :
    ∃ inner, body = inner ++ [quote] ∧ Doubled quote inner := by
  obtain ⟨inner, ends, doubled, _, _⟩ := literalRest?_eq_some_iff.mp found
  exact ⟨inner, ends, doubled⟩

/-- Behind a literal its quotation mark does not follow. -/
theorem head?_ne_of_literalRest? {quote : Char} {body : List Char}
    (found : literalRest? quote text = some (body, after)) : after.head? ≠ some quote := by
  obtain ⟨_, _, _, _, alone⟩ := literalRest?_eq_some_iff.mp found
  exact alone

/-- A literal is the same before every text that does not begin with its quotation mark. -/
theorem literalRest?_append {quote : Char} {body other : List Char}
    (found : literalRest? quote text = some (body, after)) (alone : other.head? ≠ some quote) :
    literalRest? quote (body ++ other) = some (body, other) := by
  obtain ⟨inner, ends, doubled, _, _⟩ := literalRest?_eq_some_iff.mp found
  exact literalRest?_eq_some_iff.mpr ⟨inner, ends, doubled, rfl, alone⟩

/-- A literal does not end if no quotation mark stands alone behind its start. -/
theorem literalRest?_eq_none_iff {quote : Char} :
    literalRest? quote text = none ↔ Doubled quote text := by
  fun_induction literalRest? quote text with
  | case1 => exact ⟨fun _ => .nil, fun _ => rfl⟩
  | case2 =>
      refine ⟨fun none_ => absurd none_ (Option.some_ne_none _), fun doubled => ?_⟩
      cases doubled with
      | other differs _ => exact absurd rfl differs
  | case3 rest ih =>
      rw [Option.map_eq_none_iff, ih]
      refine ⟨.pair, fun doubled => ?_⟩
      cases doubled with
      | other differs _ => exact absurd rfl differs
      | pair others => exact others
  | case4 next after differs =>
      refine ⟨fun none_ => absurd none_ (Option.some_ne_none _), fun doubled => ?_⟩
      cases doubled with
      | other alone _ => exact absurd rfl alone
      | pair _ => exact absurd rfl differs
  | case5 c rest differs ih =>
      rw [Option.map_eq_none_iff, ih]
      refine ⟨.other differs, fun doubled => ?_⟩
      cases doubled with
      | other _ others => exact others
      | pair _ => exact absurd rfl differs

/-- The mark that a text starts with is one of the set. -/
theorem MarkSet.mem_of_markAt? {mark : List Char} (found : marks.markAt? text = some mark) :
    mark ∈ marks.marks ∧ mark <+: text :=
  ⟨List.mem_of_find?_eq_some found, List.isPrefixOf_iff_prefix.mp (List.find?_some found :)⟩

/-- A word and what follows it are the whole text. -/
theorem append_wordRest (marks : MarkSet) (text : List Char) :
    (wordRest marks text).1 ++ (wordRest marks text).2 = text := by
  induction text with
  | nil => rfl
  | cons c rest ih =>
      rw [wordRest]
      split
      · rfl
      · exact congrArg (c :: ·) ih

/-- A word goes on where it does not end. -/
theorem wordRest_cons {c : Char} (goesOn : endsWord marks (c :: text) = false) :
    wordRest marks (c :: text) = (c :: (wordRest marks text).1, (wordRest marks text).2) := by
  rw [wordRest, if_neg (Bool.eq_false_iff.mp goesOn)]

theorem endsWord_cons (marks : MarkSet) (c : Char) (text : List Char) :
    endsWord marks (c :: text) =
      (isBlank c || isQuote c || (marks.markAt? (c :: text)).isSome) := rfl

/-- A word ends before what follows it. -/
theorem endsWord_wordRest (marks : MarkSet) (text : List Char) :
    endsWord marks (wordRest marks text).2 = true := by
  induction text with
  | nil => rfl
  | cons c rest ih =>
      rw [wordRest]
      split
      · assumption
      · exact ih

/-- A word begins with a character at which none ends. -/
theorem goesOn_of_wordRest {c : Char} {rest : List Char}
    (ends : wordRest marks (c :: rest ++ after) = (c :: rest, after)) :
    endsWord marks (c :: rest ++ after) = false ∧
      wordRest marks (rest ++ after) = (rest, after) := by
  rw [List.cons_append, wordRest] at ends
  split at ends
  · cases ends
  · next goesOn =>
    obtain ⟨⟨_, word⟩, left⟩ := by simpa only [Prod.mk.injEq, List.cons.injEq] using ends
    exact ⟨Bool.eq_false_iff.mpr goesOn, Prod.ext word left⟩

/-- **A word goes on as long as it can, and no longer.** It is what stands before a text if it ends
there and nowhere before. -/
theorem wordRest_eq_iff {word : List Char} :
    wordRest marks (word ++ after) = (word, after) ↔
      (∀ front rest, word = front ++ rest → rest ≠ [] → endsWord marks (rest ++ after) = false) ∧
        endsWord marks after = true := by
  induction word with
  | nil =>
      constructor
      · intro ends
        have stops := endsWord_wordRest marks after
        rw [List.nil_append] at ends
        rw [ends] at stops
        refine ⟨fun front rest split notEmpty => ?_, stops⟩
        exact absurd (List.append_eq_nil_iff.mp split.symm).2 notEmpty
      · rintro ⟨_, stops⟩
        cases after with
        | nil => rfl
        | cons c rest => rw [List.nil_append, wordRest, if_pos stops]
  | cons c word ih =>
      constructor
      · intro ends
        obtain ⟨goesOn, remaining⟩ := goesOn_of_wordRest ends
        obtain ⟨inner, stops⟩ := ih.mp remaining
        refine ⟨fun front rest split notEmpty => ?_, stops⟩
        cases front with
        | nil =>
            obtain rfl : c :: word = rest := split
            exact goesOn
        | cons d front => exact inner front rest (List.cons.inj split).2 notEmpty
      · rintro ⟨inner, stops⟩
        have goesOn : endsWord marks (c :: (word ++ after)) = false :=
          inner [] (c :: word) rfl (List.cons_ne_nil _ _)
        have remaining := ih.mpr
          ⟨fun front rest split => inner (c :: front) rest (congrArg (c :: ·) split), stops⟩
        rw [List.cons_append, wordRest_cons goesOn, remaining]

/-! ## Tokens -/

/-- The first character of a token is no blank. -/
theorem FirstToken.begins {lexeme : Lexeme} (first : FirstToken marks lexeme after) :
    ∃ c rest, lexeme.text = c :: rest ∧ isBlank c = false := by
  cases first with
  | literal opens closes => exact ⟨_, _, rfl, isBlank_of_isQuote opens⟩
  | mark notBlank noQuote found => exact ⟨_, _, rfl, notBlank⟩
  | word notEmpty ends =>
      obtain ⟨c, rest, rfl⟩ := List.exists_cons_of_ne_nil notEmpty
      have goesOn := (goesOn_of_wordRest ends).1
      rw [List.cons_append, endsWord_cons, Bool.or_eq_false_iff, Bool.or_eq_false_iff] at goesOn
      exact ⟨c, rest, rfl, goesOn.1.1⟩

theorem toLexeme_at (kind : TokenKind) (lexeme : List Char) (place : Nat) :
    (Token.at kind lexeme place).toLexeme = ⟨kind, lexeme⟩ := by
  rw [Token.at, Token.toLexeme, String.toList_ofList]

/-- What is answered to a text that starts at a place: a blank is passed over, a literal that does
not end is reported, and a token is put in front of those of what follows it. -/
inductive Scanned (marks : MarkSet) : Nat → List Char → Except TextError (List Token) → Prop where
  | nil (place : Nat) : Scanned marks place [] (.ok [])
  | blank {place : Nat} {c : Char} {text : List Char} {outcome : Except TextError (List Token)}
      (blank : isBlank c = true) (others : Scanned marks (place + c.utf8Size) text outcome) :
      Scanned marks place (c :: text) outcome
  | unclosed {quote : Char} {rest : List Char} (place : Nat) (opens : isQuote quote = true)
      (doubled : Doubled quote rest) :
      Scanned marks place (quote :: rest) (.error (.unterminatedLiteral place))
  | token {place : Nat} {lexeme : Lexeme} {after : List Char}
      {outcome : Except TextError (List Token)}
      (first : FirstToken marks lexeme after)
      (others : Scanned marks (place + octets lexeme.text) after outcome) :
      Scanned marks place (lexeme.text ++ after)
        ((Token.at lexeme.kind lexeme.text place :: ·) <$> outcome)

/-- **The tokens of a text are scanned.** -/
theorem scanned_tokensFrom (marks : MarkSet) (place : Nat) (text : List Char) :
    Scanned marks place text (tokensFrom marks place text) := by
  fun_induction tokensFrom marks place text with
  | case1 place => exact .nil place
  | case2 place c rest blank ih => exact .blank blank ih
  | case3 place c rest _ opens unclosed =>
      exact .unclosed place opens (literalRest?_eq_none_iff.mp unclosed)
  | case4 place c rest _ opens body after closes _ ih =>
      have whole := append_of_literalRest? closes
      subst whole
      exact .token (.literal opens closes) ih
  | case5 place c rest notBlank noQuote mark found ih =>
      obtain ⟨listed, left, whole⟩ := MarkSet.mem_of_markAt? found
      obtain ⟨d, inner, rfl⟩ := List.exists_cons_of_ne_nil (MarkSet.ne_nil_of_mem listed)
      rw [List.cons_append] at whole
      obtain ⟨rfl, rfl⟩ := List.cons.inj whole
      rw [List.length_cons, Nat.add_sub_cancel, List.drop_left] at ih ⊢
      exact .token (.mark (Bool.eq_false_iff.mpr notBlank) (Bool.eq_false_iff.mpr noQuote) found) ih
  | case6 place c rest notBlank noQuote missing _ word =>
      rename_i ih
      have goesOn : endsWord marks (c :: rest) = false := by
        rw [endsWord_cons, Bool.eq_false_iff.mpr notBlank, Bool.eq_false_iff.mpr noQuote, missing]
        rfl
      have whole := append_wordRest marks (c :: rest)
      have read := wordRest_cons goesOn
      rw [read] at whole
      have first : FirstToken marks ⟨kindOfWord word, word⟩ (wordRest marks rest).2 := by
        refine .word nofun ?_
        rw [whole, read]
      have scanned : Scanned marks place (word ++ (wordRest marks rest).2) _ := .token first ih
      rwa [whole] at scanned

/-- **A text is read as its tokens.** -/
theorem lexed_of_tokensFrom {place : Nat} {tokens : List Token}
    (succeeds : tokensFrom marks place text = .ok tokens) :
    Lexed marks text (tokens.map Token.toLexeme) := by
  have scanned := scanned_tokensFrom marks place text
  generalize tokensFrom marks place text = outcome at scanned succeeds
  induction scanned generalizing tokens with
  | nil =>
      cases succeeds
      exact .nil
  | blank blank _ ih => exact .blank blank (ih succeeds)
  | unclosed => cases succeeds
  | token first _ ih =>
      obtain ⟨others, remaining, rfl⟩ := ok_of_map succeeds
      rw [List.map_cons, toLexeme_at]
      exact .token first (ih remaining)

theorem tokensFrom_nil (marks : MarkSet) (place : Nat) : tokensFrom marks place [] = .ok [] := by
  rw [tokensFrom.eq_def]

/-- A blank is passed over. -/
theorem tokensFrom_blank {c : Char} (blank : isBlank c = true) (place : Nat) (text : List Char) :
    tokensFrom marks place (c :: text) = tokensFrom marks (place + c.utf8Size) text := by
  rw [tokensFrom.eq_def]
  dsimp only
  rw [if_pos blank]

/-- A token that is read at the start of a text is the first of its tokens. -/
theorem tokensFrom_token {lexeme : Lexeme} (first : FirstToken marks lexeme after) {place : Nat}
    {tokens : List Token}
    (others : tokensFrom marks (place + octets lexeme.text) after = .ok tokens) :
    tokensFrom marks place (lexeme.text ++ after) =
      .ok (.at lexeme.kind lexeme.text place :: tokens) := by
  cases first with
  | literal opens closes =>
      rw [List.cons_append, tokensFrom.eq_def]
      dsimp only
      rw [if_neg (Bool.eq_false_iff.mp (isBlank_of_isQuote opens)), if_pos opens]
      split
      · next open_ =>
        rw [closes] at open_
        cases open_
      · next same =>
        rw [closes] at same
        cases same
        rw [others]
        rfl
  | mark notBlank noQuote found =>
      rw [List.cons_append] at found
      rw [List.cons_append, tokensFrom.eq_def]
      dsimp only
      rw [if_neg (Bool.eq_false_iff.mp notBlank), if_neg (Bool.eq_false_iff.mp noQuote), found]
      dsimp only
      rw [List.length_cons, Nat.add_sub_cancel, List.drop_left, others]
      rfl
  | word notEmpty ends =>
      obtain ⟨c, rest, rfl⟩ := List.exists_cons_of_ne_nil notEmpty
      obtain ⟨goesOn, remaining⟩ := goesOn_of_wordRest ends
      rw [List.cons_append, endsWord_cons, Bool.or_eq_false_iff, Bool.or_eq_false_iff] at goesOn
      obtain ⟨⟨notBlank, noQuote⟩, noMark⟩ := goesOn
      rw [Option.isSome_eq_false_iff, Option.isNone_iff_eq_none] at noMark
      rw [List.cons_append, tokensFrom.eq_def]
      dsimp only
      rw [if_neg (Bool.eq_false_iff.mp notBlank), if_neg (Bool.eq_false_iff.mp noQuote), noMark]
      dsimp only
      rw [remaining, others]
      rfl

/-- **A text that is read as tokens has them**, wherever it starts. -/
theorem exists_tokens_of_lexed (lexed : Lexed marks text lexemes) (place : Nat) :
    ∃ tokens, tokensFrom marks place text = .ok tokens ∧ tokens.map Token.toLexeme = lexemes := by
  induction lexed generalizing place with
  | nil => exact ⟨[], tokensFrom_nil marks place, rfl⟩
  | @blank c text lexemes blank _ ih =>
      obtain ⟨tokens, others, same⟩ := ih (place + c.utf8Size)
      exact ⟨tokens, (tokensFrom_blank blank place text).trans others, same⟩
  | @token lexeme after lexemes first _ ih =>
      obtain ⟨tokens, others, rfl⟩ := ih (place + octets lexeme.text)
      exact ⟨_, tokensFrom_token first others, congrArg (· :: _) (toLexeme_at ..)⟩

end Query

end EntityQuery

import EntityQuery.Proofs.Clauses.NormalForm
import EntityQuery.Proofs.Tokens.Lexer
import EntityQuery.Proofs.Tokens.Literals
import Mathlib.Data.List.Find

/-!
# Tokens of texts in normal form

A text and its normal form begin alike behind a token: with the same mark, with the same quotation
mark, and both or neither of them end the word before (`markAt?_squeeze`, `head?_squeeze`,
`endsWord_squeeze`). So a token that is read in front of a text is read in front of the squeezed
text as well (`FirstToken.squeezed`), and as there are no blanks in tokens but within literals,
squeezing a text keeps its tokens (`Lexed.squeezed`).

A text has a normal form if and only if a lexer accepts it, and then the normal form has the same
tokens, at other places (`Lexer.read_normalize`).
-/

set_option autoImplicit false

namespace EntityQuery.Query

open Text (isBlank)

variable {marks : MarkSet} {text after front : List Char}

/-! ## What a squeezed text begins with -/

/-- A blank widens the gap. -/
theorem squeeze_of_isBlank {c : Char} (blank : isBlank c = true) (gap : Gap) (text : List Char) :
    squeeze gap none (c :: text) = squeeze gap.widen none text := by
  rw [squeeze, if_pos blank]

/-- A character that is no blank is written behind the gap. -/
theorem squeeze_of_not_isBlank {c : Char} (notBlank : isBlank c = false) (gap : Gap)
    (text : List Char) :
    squeeze gap none (c :: text) = gap.text ++ c :: squeeze .closed (afterChar none c) text := by
  rw [squeeze, if_neg (Bool.eq_false_iff.mp notBlank)]

/-- Behind a blank a squeezed text is at its end, or goes on with the space. -/
theorem squeeze_pending (text : List Char) :
    squeeze .pending none text = [] ∨ ∃ rest, squeeze .pending none text = ' ' :: rest := by
  induction text with
  | nil => exact .inl rfl
  | cons c rest ih =>
      cases blank : isBlank c with
      | true =>
          rw [squeeze_of_isBlank blank]
          exact ih
      | false =>
          rw [squeeze_of_not_isBlank blank]
          exact .inr ⟨_, rfl⟩

/-- A text without blanks and quotation marks is kept. -/
theorem squeeze_append_of_visible (visible : ∀ c ∈ front, isBlank c = false ∧ isQuote c = false)
    (text : List Char) :
    squeeze .closed none (front ++ text) = front ++ squeeze .closed none text := by
  induction front with
  | nil => rfl
  | cons c rest ih =>
      obtain ⟨notBlank, noQuote⟩ := visible c List.mem_cons_self
      have inner := ih fun d member => visible d (List.mem_cons_of_mem _ member)
      rw [List.cons_append, squeeze_of_not_isBlank notBlank, afterChar,
        if_neg (Bool.eq_false_iff.mp noQuote), inner]
      rfl

/-- The inside of a literal is kept. -/
theorem squeeze_append_of_doubled {quote : Char} (isMark : isQuote quote = true)
    (doubled : Doubled quote front) (text : List Char) :
    squeeze .closed (some quote) (front ++ text) = front ++ squeeze .closed (some quote) text := by
  induction doubled with
  | nil => rfl
  | other differs _ ih =>
      rw [List.cons_append, squeeze, afterChar, if_neg differs, ih]
      rfl
  | pair _ ih =>
      rw [List.cons_append, List.cons_append, squeeze, afterChar, if_pos rfl,
        squeeze_of_not_isBlank (isBlank_of_isQuote isMark), afterChar, if_pos isMark, ih]
      rfl

/-- What has no blanks and quotation marks begins both a text and the squeezed one, or neither. -/
theorem isPrefixOf_squeeze (visible : ∀ c ∈ front, isBlank c = false ∧ isQuote c = false)
    (text : List Char) : front.isPrefixOf (squeeze .closed none text) = front.isPrefixOf text := by
  induction front generalizing text with
  | nil => rw [List.isPrefixOf_nil_left, List.isPrefixOf_nil_left]
  | cons d front ih =>
      obtain ⟨notBlank, noQuote⟩ := visible d List.mem_cons_self
      have inner := ih fun c member => visible c (List.mem_cons_of_mem _ member)
      cases text with
      | nil => rfl
      | cons c rest =>
          cases same : d == c with
          | true =>
              obtain rfl := beq_iff_eq.mp same
              have kept : squeeze .closed none (d :: rest) = d :: squeeze .closed none rest :=
                squeeze_append_of_visible (List.forall_mem_singleton.mpr ⟨notBlank, noQuote⟩) rest
              rw [kept, List.isPrefixOf_cons_cons, List.isPrefixOf_cons_cons, inner]
          | false =>
              rw [List.isPrefixOf_cons_cons, same, Bool.false_and]
              cases blank : isBlank c with
              | true =>
                  have differs : (d == ' ') = false := by
                    cases space : d == ' ' with
                    | false => rfl
                    | true =>
                        rw [beq_iff_eq.mp space] at notBlank
                        cases notBlank
                  rw [squeeze_of_isBlank blank]
                  rcases squeeze_pending rest with nothing | ⟨more, space⟩
                  · rw [Gap.widen, nothing]
                    rfl
                  · rw [Gap.widen, space, List.isPrefixOf_cons_cons, differs, Bool.false_and]
              | false =>
                  rw [squeeze_of_not_isBlank blank, Gap.text, List.nil_append,
                    List.isPrefixOf_cons_cons, same, Bool.false_and]

/-- A text and the squeezed one begin with the same mark. -/
theorem markAt?_squeeze (marks : MarkSet) (text : List Char) :
    marks.markAt? (squeeze .closed none text) = marks.markAt? text :=
  List.find?_congr fun _ listed => isPrefixOf_squeeze (MarkSet.visible listed) text

/-- Both a text and the squeezed one begin with a quotation mark, or neither. -/
theorem head?_squeeze {quote : Char} (isMark : isQuote quote = true) (text : List Char) :
    (squeeze .closed none text).head? = some quote ↔ text.head? = some quote := by
  cases text with
  | nil => rfl
  | cons c rest =>
      cases blank : isBlank c with
      | false =>
          rw [squeeze_of_not_isBlank blank]
          rfl
      | true =>
          have noBlank := isBlank_of_isQuote isMark
          have differs : (c :: rest).head? ≠ some quote := by
            rintro ⟨⟩
            rw [blank] at noBlank
            cases noBlank
          rw [squeeze_of_isBlank blank, Gap.widen]
          refine ⟨fun head => ?_, fun head => absurd head differs⟩
          rcases squeeze_pending rest with nothing | ⟨more, space⟩
          · rw [nothing] at head
            cases head
          · rw [space] at head
            cases head
            cases isMark

/-- A word ends before both a text and the squeezed one, or before neither. -/
theorem endsWord_squeeze (marks : MarkSet) (text : List Char) :
    endsWord marks (squeeze .closed none text) = endsWord marks text := by
  cases text with
  | nil => rfl
  | cons c rest =>
      cases blank : isBlank c with
      | true =>
          have ends : endsWord marks (squeeze .pending none rest) = true := by
            rcases squeeze_pending rest with nothing | ⟨more, space⟩
            · rw [nothing]
              rfl
            · rw [space, endsWord_cons, Text.isBlank_space, Bool.true_or, Bool.true_or]
          rw [squeeze_of_isBlank blank, Gap.widen, ends, endsWord_cons, blank, Bool.true_or,
            Bool.true_or]
      | false =>
          have same := markAt?_squeeze marks (c :: rest)
          rw [squeeze_of_not_isBlank blank, Gap.text, List.nil_append] at same ⊢
          rw [endsWord_cons, endsWord_cons, same]

/-! ## Tokens of a squeezed text -/

/-- **Squeezing keeps a token.** -/
theorem FirstToken.squeeze_append {lexeme : Lexeme} (first : FirstToken marks lexeme after)
    (text : List Char) :
    squeeze .closed none (lexeme.text ++ text) = lexeme.text ++ squeeze .closed none text := by
  cases first with
  | @literal quote body _ opens closes =>
      obtain ⟨inner, rfl, doubled⟩ := exists_doubled_of_literalRest? closes
      have last : squeeze .closed (some quote) (quote :: text) =
          quote :: squeeze .closed none text := by
        rw [squeeze, afterChar, if_pos rfl]
      dsimp only
      rw [List.cons_append, squeeze_of_not_isBlank (isBlank_of_isQuote opens), afterChar,
        if_pos opens, List.append_assoc, squeeze_append_of_doubled opens doubled,
        List.singleton_append, last,
        List.cons_append, List.append_assoc]
      rfl
  | mark _ _ found =>
      exact squeeze_append_of_visible (MarkSet.visible (MarkSet.mem_of_markAt? found).1) text
  | word _ ends => exact squeeze_append_of_visible (visible_of_wordRest ends) text

/-- **A token in front of a text is one in front of the squeezed text.** -/
theorem FirstToken.squeezed {lexeme : Lexeme} (first : FirstToken marks lexeme after) :
    FirstToken marks lexeme (squeeze .closed none after) := by
  cases first with
  | @literal quote body _ opens closes =>
      have alone := head?_ne_of_literalRest? closes
      rw [Ne, ← head?_squeeze opens] at alone
      exact .literal opens (literalRest?_append closes alone)
  | @mark c rest _ notBlank noQuote found =>
      refine .mark notBlank noQuote ?_
      rwa [← squeeze_append_of_visible (MarkSet.visible (MarkSet.mem_of_markAt? found).1),
        markAt?_squeeze]
  | @word word _ notEmpty ends =>
      have visible := visible_of_wordRest ends
      obtain ⟨goesOn, stops⟩ := wordRest_eq_iff.mp ends
      refine .word notEmpty (wordRest_eq_iff.mpr ⟨fun front rest split rest_ne => ?_, ?_⟩)
      · have inner : ∀ c ∈ rest, isBlank c = false ∧ isQuote c = false :=
          fun c member => visible c (split ▸ List.mem_append_right front member)
        rw [← squeeze_append_of_visible inner, endsWord_squeeze]
        exact goesOn front rest split rest_ne
      · rwa [endsWord_squeeze]

/-- **Squeezing a text keeps its tokens.** -/
theorem Lexed.squeezed {lexemes : List Lexeme} (lexed : Lexed marks text lexemes) (gap : Gap) :
    Lexed marks (squeeze gap none text) lexemes := by
  induction lexed generalizing gap with
  | nil => exact .nil
  | blank blank _ ih =>
      rw [squeeze_of_isBlank blank]
      exact ih gap.widen
  | @token lexeme after lexemes first _ ih =>
      have token : Lexed marks (squeeze .closed none (lexeme.text ++ after))
          (lexeme :: lexemes) := by
        rw [first.squeeze_append]
        exact .token first.squeezed (ih .closed)
      obtain ⟨c, rest, begins, notBlank⟩ := first.begins
      rw [begins, List.cons_append, squeeze_of_not_isBlank notBlank] at token ⊢
      cases gap with
      | start => exact token
      | closed => exact token
      | pending => exact .blank Text.isBlank_space token

/-- **A lexer accepts a text if and only if the text has a normal form, and reads the same from
both.** -/
theorem Lexer.read_normalize (lexer : Lexer) (text : String) :
    (∃ problem other, (lexer.read text).1 = .error problem ∧ normalize text = .error other) ∨
      ∃ tokens normal others, (lexer.read text).1 = .ok tokens ∧ normalize text = .ok normal ∧
        (lexer.read normal).1 = .ok others ∧
        others.map Token.toLexeme = tokens.map Token.toLexeme := by
  simp only [Lexer.read_eq]
  have accepted := exists_tokensFrom_iff lexer.marks 0 text.toList
  rw [← Option.not_isSome_iff_eq_none, ← unclosed?_isSome] at accepted
  cases outcome : tokensFrom lexer.marks 0 text.toList with
  | error problem =>
      have refused : ¬ ∃ tokens, tokensFrom lexer.marks 0 text.toList = .ok tokens := by
        rw [outcome]
        nofun
      rw [accepted, not_not] at refused
      obtain ⟨offset, unclosed⟩ := Option.isSome_iff_exists.mp refused
      refine .inl ⟨problem, .unterminatedLiteral offset, outcome, ?_⟩
      rw [normalize_eq, unclosed]
  | ok tokens =>
      have closed := accepted.mp ⟨tokens, outcome⟩
      rw [Option.not_isSome_iff_eq_none] at closed
      have squeezed := (lexed_of_tokensFrom outcome).squeezed .start
      obtain ⟨others, read, same⟩ := exists_tokens_of_lexed squeezed 0
      refine .inr
        ⟨tokens, String.ofList (squeeze .start none text.toList), others, outcome, ?_, ?_, same⟩
      · rw [normalize_eq, closed]
      · rwa [tokenize, String.toList_ofList]

end EntityQuery.Query

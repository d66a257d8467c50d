import EntityQuery.Query.Lexer
import EntityQuery.Proofs.Tokens.Lexing

/-!
# Lexers and tokens

A lexer goes through a text with the word that it is in, and puts one token after the other into its
buffer (`Lexer.scan_word`, `Lexer.scan_token`). It comes to the same tokens as `tokensFrom`, which
reads every word at once (`Lexer.scan_tokens`, `Lexer.scan_problem`). What it has read before makes
no difference (`Lexer.read_eq`), as it keeps its marks (`Lexer.readAll_marks`).
-/

set_option autoImplicit false

namespace EntityQuery.Query.Lexer

open Text (isBlank octets)

variable {lexer : Lexer} {place : Nat} {text : List Char} {problem : TextError}

/-- Where no word goes on, the word before is at its end. -/
theorem scan_endWord (ends : endsWord lexer.marks text = true) (word? : Option (Nat × List Char))
    (place : Nat) : lexer.scan word? place text = (lexer.endWord word?).scan none place text := by
  cases text with
  | nil =>
      rw [scan.eq_def, scan.eq_def]
      rfl
  | cons c rest =>
      rw [scan.eq_def, scan.eq_def]
      dsimp only
      rw [endWord_none, endWord_marks]
      by_cases blank : isBlank c = true
      · rw [if_pos blank, if_pos blank]
      · by_cases quote : isQuote c = true
        · rw [if_neg blank, if_neg blank, if_pos quote, if_pos quote]
        · rw [endsWord_cons, Bool.eq_false_iff.mpr blank, Bool.eq_false_iff.mpr quote,
            Bool.false_or, Bool.false_or] at ends
          obtain ⟨mark, found⟩ := Option.isSome_iff_exists.mp ends
          rw [if_neg blank, if_neg blank, if_neg quote, if_neg quote, found]

/-- A character that goes on with a word. -/
theorem scan_continueWord {c : Char} (goesOn : endsWord lexer.marks (c :: text) = false)
    (word? : Option (Nat × List Char)) (place : Nat) :
    lexer.scan word? place (c :: text) =
      lexer.scan (some (continueWord word? place c)) (place + c.utf8Size) text := by
  rw [endsWord_cons, Bool.or_eq_false_iff, Bool.or_eq_false_iff] at goesOn
  obtain ⟨⟨notBlank, noQuote⟩, noMark⟩ := goesOn
  rw [Option.isSome_eq_false_iff, Option.isNone_iff_eq_none] at noMark
  rw [scan.eq_def]
  dsimp only
  rw [if_neg (Bool.eq_false_iff.mp notBlank), if_neg (Bool.eq_false_iff.mp noQuote), noMark]

/-- **A word that has been begun becomes the token of the whole word.** -/
theorem scan_word (lexer : Lexer) (first : Nat) (word : List Char) (place : Nat)
    (text : List Char) :
    lexer.scan (some (first, word)) place text =
      (lexer.add (kindOfWord (word ++ (wordRest lexer.marks text).1))
          (word ++ (wordRest lexer.marks text).1) first).scan none
        (place + octets (wordRest lexer.marks text).1) (wordRest lexer.marks text).2 := by
  induction text generalizing word place with
  | nil =>
      rw [scan_endWord rfl, wordRest, List.append_nil]
      rfl
  | cons c rest ih =>
      cases ends : endsWord lexer.marks (c :: rest) with
      | true =>
          rw [scan_endWord ends, wordRest, if_pos ends, List.append_nil]
          rfl
      | false =>
          rw [scan_continueWord ends, continueWord, ih, wordRest_cons ends,
            List.append_assoc, octets, Nat.add_assoc]
          rfl

/-- A lexer keeps its marks. -/
theorem scan_marks (lexer : Lexer) (word? : Option (Nat × List Char)) (place : Nat)
    (text : List Char) :
    (lexer.scan word? place text).2.marks = lexer.marks := by
  fun_induction scan lexer word? place text with
  | case1 => exact endWord_marks _ _
  | case2 lexer word? place c rest _ ih => rw [ih, endWord_marks]
  | case3 lexer word? place c rest _ _ _ => exact endWord_marks _ _
  | case4 lexer word? place c rest _ _ body after _ _ ih => rw [ih, add_marks, endWord_marks]
  | case5 lexer word? place c rest _ _ mark _ ih => rw [ih, add_marks, endWord_marks]
  | case6 lexer word? place c rest _ _ _ ih => exact ih

/-! ## What a lexer reads outside words -/

/-- A blank is passed over. -/
theorem scan_blank {c : Char} (blank : isBlank c = true) :
    lexer.scan none place (c :: text) = lexer.scan none (place + c.utf8Size) text := by
  rw [scan.eq_def]
  dsimp only
  rw [if_pos blank, endWord_none]

/-- A literal that does not end is reported. -/
theorem scan_unclosed {quote : Char} (opens : isQuote quote = true) (doubled : Doubled quote text) :
    lexer.scan none place (quote :: text) = (some (.unterminatedLiteral place), lexer) := by
  rw [scan.eq_def]
  dsimp only
  rw [if_neg (Bool.eq_false_iff.mp (isBlank_of_isQuote opens)), if_pos opens]
  split
  · rfl
  · next found =>
    rw [literalRest?_eq_none_iff.mpr doubled] at found
    cases found

/-- **A token is put into the buffer.** -/
theorem scan_token {lexeme : Lexeme} {after : List Char}
    (first : FirstToken lexer.marks lexeme after) :
    lexer.scan none place (lexeme.text ++ after) =
      (lexer.add lexeme.kind lexeme.text place).scan none (place + octets lexeme.text) after := by
  cases first with
  | @literal quote body _ opens closes =>
      rw [List.cons_append, scan.eq_def]
      dsimp only
      rw [if_neg (Bool.eq_false_iff.mp (isBlank_of_isQuote opens)), if_pos opens]
      split
      · next missing =>
        rw [closes] at missing
        cases missing
      · next found =>
        rw [closes] at found
        cases found
        rfl
  | @mark c rest _ notBlank noQuote found =>
      rw [List.cons_append] at found
      rw [List.cons_append, scan.eq_def]
      dsimp only
      rw [if_neg (Bool.eq_false_iff.mp notBlank), if_neg (Bool.eq_false_iff.mp noQuote), found]
      dsimp only
      rw [List.length_cons, Nat.add_sub_cancel, List.drop_left, endWord_none]
  | @word word _ notEmpty ends =>
      obtain ⟨c, rest, rfl⟩ := List.exists_cons_of_ne_nil notEmpty
      obtain ⟨goesOn, remaining⟩ := goesOn_of_wordRest ends
      dsimp only
      rw [List.cons_append] at goesOn ⊢
      rw [scan_continueWord goesOn, continueWord, scan_word, remaining, octets, Nat.add_assoc]
      rfl

/-- The tokens of a text are put into the buffer. -/
theorem scan_tokens {tokens : List Token}
    (succeeds : tokensFrom lexer.marks place text = .ok tokens) :
    lexer.scan none place text = (none, { lexer with buffer := lexer.buffer ++ tokens }) := by
  have scanned := scanned_tokensFrom lexer.marks place text
  generalize same : lexer.marks = marks at scanned succeeds
  generalize tokensFrom marks place text = outcome at scanned succeeds
  induction scanned generalizing lexer tokens with
  | nil place =>
      cases succeeds
      subst same
      rw [scan.eq_def, List.append_nil]
      rfl
  | blank blank _ ih => rw [scan_blank blank, ih same succeeds]
  | unclosed => cases succeeds
  | token first _ ih =>
      obtain ⟨others, remaining, rfl⟩ := ok_of_map succeeds
      subst same
      rw [scan_token first, ih (add_marks ..) remaining, add, List.append_assoc]
      rfl

/-- The literal that is not closed is reported. -/
theorem scan_problem (fails : tokensFrom lexer.marks place text = .error problem) :
    (lexer.scan none place text).1 = some problem := by
  have scanned := scanned_tokensFrom lexer.marks place text
  generalize same : lexer.marks = marks at scanned fails
  generalize tokensFrom marks place text = outcome at scanned fails
  induction scanned generalizing lexer with
  | nil => cases fails
  | blank blank _ ih => rw [scan_blank blank, ih same fails]
  | unclosed place opens doubled =>
      cases fails
      rw [scan_unclosed opens doubled]
  | @token _ lexeme _ outcome first _ ih =>
      subst same
      rw [scan_token first]
      refine ih (add_marks ..) ?_
      cases outcome with
      | error other =>
          cases fails
          rfl
      | ok tokens => cases fails

/-! ## What a lexer answers -/

/-- **What a lexer answers to a text does not depend on the texts before it.** -/
theorem read_eq (lexer : Lexer) (text : String) :
    (lexer.read text).1 = tokenize lexer.marks text := by
  rw [read, tokenize]
  cases outcome : tokensFrom lexer.marks 0 text.toList with
  | ok tokens =>
      have scanned : scan { lexer with buffer := [] } none 0 text.toList = _ := scan_tokens outcome
      rw [scanned, List.nil_append]
  | error problem =>
      have reported : (scan { lexer with buffer := [] } none 0 text.toList).1 = _ :=
        scan_problem outcome
      split
      · next nothing =>
        rw [nothing] at reported
        cases reported
      · next other after same =>
        rw [same] at reported
        cases reported
        rfl

/-- A lexer that has read a text has the marks that it had before. -/
theorem read_marks (lexer : Lexer) (text : String) : (lexer.read text).2.marks = lexer.marks := by
  have kept := scan_marks { lexer with buffer := [] } none 0 text.toList
  rw [read]
  split
  · next same => rwa [same] at kept
  · next same => rwa [same] at kept

theorem readAll_marks (lexer : Lexer) (texts : List String) :
    (lexer.readAll texts).2.marks = lexer.marks := by
  induction texts generalizing lexer with
  | nil => rfl
  | cons text rest ih => exact (ih (lexer.read text).2).trans (read_marks lexer text)

end EntityQuery.Query.Lexer

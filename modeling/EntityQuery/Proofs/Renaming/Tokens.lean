import EntityQuery.Proofs.Renaming.Spelling
import EntityQuery.Proofs.Text.Pieces
import EntityQuery.Proofs.Tokens.Lexing
import Mathlib.Data.List.Find
import Mathlib.Data.List.Forall2

/-!
# Tokens written anew

In a clause some of its tokens are written anew, and the blanks between them are kept (`respell`). A
token that is written anew begins with another identifier, behind which nothing or a dot follows
(`Renamed`).

The new text is read as the new tokens, each of the kind of the old one, and apart from the names
nothing is changed in it (`lexed_respell`).
-/

set_option autoImplicit false

namespace EntityQuery.Query

open Text (isBlank isLetter)

/-- A text in which tokens are written anew, each given with what is written for it. The blanks
before them are kept. -/
def respell : List (List Char × List Char) → List Char → List Char
  | [], text => text
  | (old, new) :: others, text =>
    text.takeWhile isBlank ++ (new ++ respell others ((text.dropWhile isBlank).drop old.length))

/-- What is written for the text of a token: the same, or another identifier in the place of the one
that it begins with. -/
inductive Renamed : List Char → List Char → Prop where
  | kept (text : List Char) : Renamed text text
  | head {old new rest : List Char} (was : isIdentifier old = true) (becomes : NewName new)
      (ends : ∀ c ∈ rest.head?, c = '.') : Renamed (old ++ rest) (new ++ rest)

theorem respell_blank {c : Char} (blank : isBlank c = true) (changes : List (List Char × List Char))
    (text : List Char) : respell changes (c :: text) = c :: respell changes text := by
  cases changes with
  | nil => rfl
  | cons change others =>
      rw [respell, respell, List.takeWhile_cons_of_pos blank, List.dropWhile_cons_of_pos blank]
      rfl

theorem respell_token {c : Char} {rest : List Char} (notBlank : isBlank c = false) (new : List Char)
    (changes : List (List Char × List Char)) (text : List Char) :
    respell ((c :: rest, new) :: changes) (c :: rest ++ text) = new ++ respell changes text := by
  have stays := Bool.eq_false_iff.mp notBlank
  rw [respell, List.cons_append, List.takeWhile_cons_of_neg stays, List.dropWhile_cons_of_neg stays,
    ← List.cons_append, List.drop_left]
  rfl

/-! ## Marks and the ends of words -/

variable {marks : MarkSet} {inWord : Bool} {text other : List Char}

/-- No mark has a character of identifiers. -/
theorem MarkSet.separators {mark : List Char} (listed : mark ∈ marks.marks) :
    ∀ c ∈ mark, isWordChar c = false := by
  have all : (marks.marks.all fun mark => mark.all fun c => !isWordChar c) = true := by
    cases marks <;> decide
  intro c member
  simpa using List.all_eq_true.mp (List.all_eq_true.mp all mark listed) c member

namespace Respelled

/-- A separator is in the same place at the start of both texts. -/
theorem head?_eq_iff (respelled : Respelled inWord text other) {separator : Char}
    (notWord : isWordChar separator = false) :
    other.head? = some separator ↔ text.head? = some separator := by
  cases respelled with
  | nil => rfl
  | keep others => rfl
  | @name old new text other was becomes ends others =>
      obtain ⟨c, rest, rfl, isWord⟩ := was.first
      obtain ⟨d, more, rfl, isWordToo⟩ := becomes.spelling.first
      simp only [List.cons_append, List.head?_cons, Option.some.injEq]
      constructor
      · rintro rfl
        rw [notWord] at isWordToo
        cases isWordToo
      · rintro rfl
        rw [notWord] at isWord
        cases isWord

/-- What consists of separators stands at the start of both texts or of neither. -/
theorem isPrefixOf_eq (respelled : Respelled inWord text other) {mark : List Char}
    (separators : ∀ c ∈ mark, isWordChar c = false) :
    mark.isPrefixOf other = mark.isPrefixOf text := by
  induction mark generalizing inWord text other with
  | nil => rw [List.isPrefixOf_nil_left, List.isPrefixOf_nil_left]
  | cons d mark ih =>
      have notWord := separators d (List.mem_cons_self ..)
      have inner := fun c member => separators c (List.mem_cons_of_mem _ member)
      have differs : ∀ {c : Char}, isWordChar c = true → (d == c) = false := by
        intro c isWord
        cases same : d == c with
        | false => rfl
        | true =>
            rw [beq_iff_eq.mp same, isWord] at notWord
            cases notWord
      cases respelled with
      | nil => rfl
      | keep others =>
          rw [List.isPrefixOf_cons_cons, List.isPrefixOf_cons_cons, ih others inner]
      | name was becomes ends others =>
          obtain ⟨c, rest, rfl, isWord⟩ := was.first
          obtain ⟨e, more, rfl, isWordToo⟩ := becomes.spelling.first
          rw [List.cons_append, List.cons_append, List.isPrefixOf_cons_cons,
            List.isPrefixOf_cons_cons, differs isWord, differs isWordToo, Bool.false_and,
            Bool.false_and]

/-- Both texts start with the same mark, if with any. -/
theorem markAt?_eq (respelled : Respelled inWord text other) :
    marks.markAt? other = marks.markAt? text :=
  List.find?_congr fun _ listed => respelled.isPrefixOf_eq (MarkSet.separators listed)

/-- Separators in front are kept. -/
theorem behind_separators (respelled : Respelled false text other) {front : List Char}
    (separators : ∀ c ∈ front, isWordChar c = false) :
    Respelled false (front ++ text) (front ++ other) := by
  induction front with
  | nil => exact respelled
  | cons c rest ih =>
      have notWord := separators c (List.mem_cons_self ..)
      refine .keep ?_
      rw [notWord]
      exact ih fun d member => separators d (List.mem_cons_of_mem _ member)

end Respelled

/-- No mark begins with a character of identifiers. -/
theorem markAt?_of_isWordChar {c : Char} (isWord : isWordChar c = true) :
    marks.markAt? (c :: text) = none := by
  cases found : marks.markAt? (c :: text) with
  | none => rfl
  | some mark =>
      obtain ⟨listed, begins⟩ := MarkSet.mem_of_markAt? found
      obtain ⟨d, rest, rfl⟩ := List.exists_cons_of_ne_nil (MarkSet.ne_nil_of_mem listed)
      obtain ⟨rfl, _⟩ := List.cons_prefix_cons.mp begins
      rw [MarkSet.separators listed d (List.mem_cons_self ..)] at isWord
      cases isWord

/-- No word ends before a character of identifiers. -/
theorem endsWord_of_isWordChar {c : Char} (isWord : isWordChar c = true) :
    endsWord marks (c :: text) = false := by
  rw [endsWord_cons, isBlank_of_isWordChar isWord, isQuote_of_isWordChar isWord,
    markAt?_of_isWordChar isWord]
  rfl

/-- An identifier is a part of the word that it begins. -/
theorem wordRest_append {word : List Char} (chars : ∀ c ∈ word, isWordChar c = true) :
    wordRest marks (word ++ text) = (word ++ (wordRest marks text).1, (wordRest marks text).2) := by
  induction word with
  | nil => rfl
  | cons c rest ih =>
      rw [List.cons_append,
        wordRest_cons (endsWord_of_isWordChar (chars c (List.mem_cons_self ..))), ih fun d member =>
          chars d (List.mem_cons_of_mem _ member)]
      rfl

namespace Respelled

/-- A word ends before both texts or before neither. -/
theorem endsWord_eq (respelled : Respelled inWord text other) :
    endsWord marks other = endsWord marks text := by
  cases respelled with
  | nil => rfl
  | keep others =>
      have whole : Respelled inWord _ _ := keep others
      rw [endsWord_cons, endsWord_cons, whole.markAt?_eq]
  | name was becomes ends others =>
      obtain ⟨c, rest, rfl, isWord⟩ := was.first
      obtain ⟨d, more, rfl, isWordToo⟩ := becomes.spelling.first
      exact (endsWord_of_isWordChar isWordToo).trans (endsWord_of_isWordChar isWord).symm

/-- Where a word ends, no name begins. -/
theorem follows (respelled : Respelled inWord text other) (ends : endsWord marks text = true) :
    Follows text other := by
  cases respelled with
  | nil => exact .nil
  | @keep _ c text other others =>
      have notWord : isWordChar c = false := by
        cases isWord : isWordChar c with
        | false => rfl
        | true =>
            rw [endsWord_of_isWordChar isWord] at ends
            cases ends
      rw [notWord] at others
      exact .cons notWord others
  | name was =>
      obtain ⟨c, rest, rfl, isWord⟩ := was.first
      rw [List.cons_append, endsWord_of_isWordChar isWord] at ends
      cases ends

end Respelled

/-- A word is the same before a text that follows in the place of another. -/
theorem wordRest_of_follows {word : List Char} (follows : Follows text other)
    (ends : wordRest marks (word ++ text) = (word, text)) :
    wordRest marks (word ++ other) = (word, other) := by
  induction word with
  | nil =>
      have stops := endsWord_wordRest marks text
      rw [List.nil_append] at ends
      rw [ends] at stops
      have respelled : Respelled false _ _ := follows.respelled
      have stopsToo := respelled.endsWord_eq.trans stops
      cases other with
      | nil => rfl
      | cons c rest => rw [List.nil_append, wordRest, if_pos stopsToo]
  | cons c rest ih =>
      obtain ⟨goesOn, remaining⟩ := goesOn_of_wordRest ends
      have whole := (Respelled.refl false (c :: rest)).append follows
      rw [← whole.endsWord_eq] at goesOn
      rw [List.cons_append] at goesOn ⊢
      rw [wordRest_cons goesOn, ih remaining]

/-! ## The kinds of words -/

/-- The part of a word up to its first dot is the identifier that it begins with, if a dot follows
it. -/
theorem takeWhile_of_isIdentifier {word rest : List Char} (identifier : isIdentifier word = true)
    (ends : ∀ c ∈ rest.head?, c = '.') : (word ++ rest).takeWhile (· ≠ '.') = word := by
  have noDot := notMem_of_isIdentifier identifier (by decide : isWordChar '.' = false)
  exact (Text.split_append noDot ends).1

/-- A letter is no digit. -/
theorem isDigit_of_isLetter {c : Char} (letter : isLetter c = true) : c.isDigit = false := by
  cases digit : c.isDigit with
  | false => rfl
  | true =>
      have letters : ∀ n, n < 58 → isLetter (Char.ofNat n) = false := by decide +kernel
      have bounds : (decide (48 ≤ c.val) && decide (c.val ≤ 57)) = true := digit
      have below :=
        UInt32.le_iff_toNat_le.mp (of_decide_eq_true ((Bool.and_eq_true _ _).mp bounds).2)
      have notLetter := letters c.toNat (Nat.lt_succ_of_le below)
      rw [Char.ofNat_toNat, letter] at notLetter
      cases notLetter

/-- An identifier begins with no digit. -/
theorem head?_of_isIdentifier {word : List Char} (identifier : isIdentifier word = true)
    (rest : List Char) : (word ++ rest).head?.any Char.isDigit = false := by
  cases word with
  | nil => cases identifier
  | cons c word =>
      rw [isIdentifier, Bool.and_eq_true] at identifier
      rw [List.cons_append, List.head?_cons, Option.any_some]
      rcases (Bool.or_eq_true _ _).mp identifier.1 with letter | underscore
      · exact isDigit_of_isLetter letter
      · rw [beq_iff_eq.mp underscore]
        rfl

/-- An identifier alone is a word, and with a dot behind it a path. -/
theorem kindOfWord_of_isIdentifier {word rest : List Char} (identifier : isIdentifier word = true)
    (ends : ∀ c ∈ rest.head?, c = '.') :
    kindOfWord (word ++ rest) = if rest = [] then .word else .path := by
  have noDot := notMem_of_isIdentifier identifier (by decide : isWordChar '.' = false)
  rw [kindOfWord, head?_of_isIdentifier identifier, isPath_eq,
    takeWhile_of_isIdentifier identifier ends, identifier, Bool.and_true]
  cases rest with
  | nil =>
      rw [List.append_nil, if_pos rfl]
      simp [noDot]
  | cons c more =>
      obtain rfl := ends c rfl
      simp

/-! ## Texts with tokens written anew -/

/-- A token that is kept stays one before a text with other names. -/
theorem FirstToken.kept {lexeme : Lexeme} (first : FirstToken marks lexeme text)
    (respelled : Respelled false text other) :
    FirstToken marks lexeme other ∧
      Respelled false (lexeme.text ++ text) (lexeme.text ++ other) := by
  cases first with
  | @literal quote body _ opens closes =>
      obtain ⟨inner, rfl, _⟩ := exists_doubled_of_literalRest? closes
      have notWord := isWordChar_of_isQuote opens
      have alone : other.head? ≠ some quote := by
        rw [Ne, respelled.head?_eq_iff notWord]
        exact head?_ne_of_literalRest? closes
      refine ⟨.literal opens (literalRest?_append closes alone), ?_⟩
      have whole : Respelled false _ _ := respelled.behind (quote :: inner) notWord
      simpa using whole
  | @mark c rest _ notBlank noQuote found =>
      have separators := MarkSet.separators (MarkSet.mem_of_markAt? found).1
      have whole := respelled.behind_separators separators
      exact ⟨.mark notBlank noQuote (whole.markAt?_eq.trans found), whole⟩
  | @word word _ notEmpty ends =>
      have stops := endsWord_wordRest marks (word ++ text)
      rw [ends] at stops
      have follows := respelled.follows stops
      exact ⟨.word notEmpty (wordRest_of_follows follows ends),
        (Respelled.refl false word).append follows⟩

/-- A token that begins with another identifier is one of the same kind. -/
theorem FirstToken.renamed {kind : TokenKind} {old new rest : List Char}
    (was : isIdentifier old = true) (becomes : NewName new) (dot : ∀ c ∈ rest.head?, c = '.')
    (first : FirstToken marks ⟨kind, old ++ rest⟩ text) (respelled : Respelled false text other) :
    FirstToken marks ⟨kind, new ++ rest⟩ other ∧
      Respelled false (old ++ rest ++ text) (new ++ rest ++ other) := by
  obtain ⟨c, inner, rfl, isWord⟩ := (spelling_of_isIdentifier was).first
  obtain ⟨notEmpty, newChars⟩ := all_of_isIdentifier becomes.identifier
  generalize whole : (⟨kind, c :: inner ++ rest⟩ : Lexeme) = lexeme at first
  cases first with
  | literal opens =>
      cases whole
      rw [isQuote_of_isWordChar isWord] at opens
      cases opens
  | mark notBlank noQuote found =>
      cases whole
      rw [List.cons_append, markAt?_of_isWordChar isWord] at found
      cases found
  | @word word _ _ ends =>
      cases whole
      have stops := endsWord_wordRest marks (c :: inner ++ rest ++ text)
      rw [ends] at stops
      have follows := respelled.follows stops
      have read : wordRest marks (rest ++ text) = (rest, text) := by
        rw [List.append_assoc, wordRest_append (all_of_isIdentifier was).2] at ends
        obtain ⟨same, left⟩ := Prod.mk.inj ends
        exact Prod.ext (List.append_cancel_left same) left
      have kind : kindOfWord (c :: inner ++ rest) = kindOfWord (new ++ rest) := by
        rw [kindOfWord_of_isIdentifier was dot, kindOfWord_of_isIdentifier becomes.identifier dot]
      refine ⟨kind ▸ .word (by simp [notEmpty]) ?_, ?_⟩
      · rw [List.append_assoc, wordRest_append newChars, wordRest_of_follows follows read]
      · have onwards := (Respelled.refl true rest).append follows
        rw [List.append_assoc, List.append_assoc]
        refine .name (spelling_of_isIdentifier was) becomes ?_ onwards
        cases rest with
        | nil => exact follows.ends
        | cons d more =>
            rintro _ ⟨⟩
            rw [dot d rfl]
            decide

/-- **A text with tokens written anew is read as the new tokens**, and nothing but names is changed
in it. -/
theorem lexed_respell {lexemes others : List Lexeme} (lexed : Lexed marks text lexemes)
    (renamed : List.Forall₂
      (fun old new : Lexeme => new.kind = old.kind ∧ Renamed old.text new.text)
      lexemes others) :
    Lexed marks (respell ((lexemes.map Lexeme.text).zip (others.map Lexeme.text)) text) others ∧
      Respelled false text
        (respell ((lexemes.map Lexeme.text).zip (others.map Lexeme.text)) text) := by
  induction lexed generalizing others with
  | nil =>
      cases renamed
      exact ⟨.nil, .nil⟩
  | @blank c text lexemes blank _ ih =>
      obtain ⟨read, respelled⟩ := ih renamed
      rw [respell_blank blank]
      refine ⟨.blank blank read, .keep ?_⟩
      rw [isWordChar_of_isBlank blank]
      exact respelled
  | @token lexeme after lexemes first _ ih =>
      cases renamed with
      | @cons _ other _ others one more =>
          obtain ⟨read, respelled⟩ := ih more
          obtain ⟨c, rest, begins, notBlank⟩ := first.begins
          rw [List.map_cons, List.map_cons, List.zip_cons_cons, begins,
            respell_token notBlank, ← begins]
          obtain ⟨kind, text⟩ := lexeme
          obtain ⟨kind, otherText⟩ := other
          obtain ⟨rfl, change⟩ := one
          cases change with
          | kept =>
              obtain ⟨firstToo, whole⟩ := first.kept respelled
              exact ⟨.token firstToo read, whole⟩
          | head was becomes dot =>
              obtain ⟨firstToo, whole⟩ := first.renamed was becomes dot respelled
              exact ⟨.token firstToo read, whole⟩

end EntityQuery.Query

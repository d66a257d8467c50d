import EntityQuery.Proofs.Clauses.Layout
import EntityQuery.Query.Token

/-!
# Texts with other names

In a text some names are written anew, each as another identifier, and everything else is kept
(`Respelled`). A new name stands apart: neither before it nor behind it is a letter, a numeral or an
underscore.

Such a text has its literals in the same places (`Respelled.afterText_eq`) and is in normal form
where the old one is (`Respelled.normal`). No new name is one of the words that clauses begin with,
so a keyword that is found in the new text was in the old one (`Respelled.keyword`), and a text that
is free of a keyword stays so (`Respelled.free`).
-/

set_option autoImplicit false

namespace EntityQuery.Query

open Text (isBlank isLetter isLetterOrNumeral)

/-! ## Identifiers -/

/-- A character that identifiers are made of. -/
def isWordChar (c : Char) : Bool :=
  isLetterOrNumeral c || c == '_'

/-- An identifier begins with a letter or an underscore. -/
def isIdentifier (word : List Char) : Bool :=
  match word with
  | [] => false
  | c :: rest => (isLetter c || c == '_') && rest.all isWordChar

/-- A path is an identifier with a dot and more behind it. -/
theorem isPath_eq (word : List Char) :
    isPath word = (word.contains '.' && isIdentifier (word.takeWhile (· ≠ '.'))) := rfl

/-- The code points of blanks. -/
def blankCodes : List Nat :=
  [0x09, 0x0A, 0x0B, 0x0C, 0x0D, 0x20, 0x85, 0xA0, 0x1680, 0x2000, 0x2001, 0x2002, 0x2003,
    0x2004, 0x2005, 0x2006, 0x2007, 0x2008, 0x2009, 0x200A, 0x2028, 0x2029, 0x202F, 0x205F, 0x3000]

theorem mem_blankCodes {c : Char} (blank : isBlank c = true) : c.toNat ∈ blankCodes := by
  simp only [isBlank, Bool.or_eq_true, Bool.and_eq_true, decide_eq_true_eq, beq_iff_eq] at blank
  simp only [blankCodes, List.mem_cons, List.not_mem_nil, or_false]
  omega

/-- Identifiers have no blanks. -/
theorem isBlank_of_isWordChar {c : Char} (word : isWordChar c = true) : isBlank c = false := by
  cases blank : isBlank c with
  | false => rfl
  | true =>
      have none : ∀ n ∈ blankCodes, isWordChar (Char.ofNat n) = false := by decide +kernel
      have notWord := none _ (mem_blankCodes blank)
      rw [Char.ofNat_toNat, word] at notWord
      cases notWord

/-- Identifiers have no quotation marks. -/
theorem isQuote_of_isWordChar {c : Char} (word : isWordChar c = true) : isQuote c = false := by
  cases quote : isQuote c with
  | false => rfl
  | true =>
      rcases isQuote_eq_true_iff.mp quote with rfl | rfl <;> exact absurd word (by decide)

theorem isWordChar_of_isBlank {c : Char} (blank : isBlank c = true) : isWordChar c = false := by
  cases isWord : isWordChar c with
  | false => rfl
  | true =>
      rw [isBlank_of_isWordChar isWord] at blank
      cases blank

theorem isWordChar_of_isQuote {c : Char} (quote : isQuote c = true) : isWordChar c = false := by
  cases isWord : isWordChar c with
  | false => rfl
  | true =>
      rw [isQuote_of_isWordChar isWord] at quote
      cases quote

theorem isWordChar_of_isAlpha {c : Char} (alpha : c.isAlpha = true) : isWordChar c = true := by
  rw [isWordChar, Text.isLetterOrNumeral_of_isLetter (Text.isLetter_of_isAlpha alpha), Bool.true_or]

theorem isWordChar_of_isDigit {c : Char} (digit : c.isDigit = true) : isWordChar c = true := by
  have ascii : c.toNat < 128 := by
    have bounds : (decide (48 ≤ c.val) && decide (c.val ≤ 57)) = true := digit
    have below := UInt32.le_iff_toNat_le.mp (of_decide_eq_true ((Bool.and_eq_true _ _).mp bounds).2)
    exact Nat.lt_of_le_of_lt below (by decide)
  rw [isWordChar, isLetterOrNumeral, if_pos ascii, Char.isAlphanum, digit, Bool.or_true,
    Bool.true_or]

/-- The case of a character makes no difference to whether it may stand in an identifier. -/
theorem isWordChar_toLower (c : Char) : isWordChar c.toLower = isWordChar c := by
  rcases Text.toLower_cases c with same | ⟨capital, small⟩
  · rw [same]
  · rw [isWordChar_of_isAlpha (Text.isAlpha_of_isLower small),
      isWordChar_of_isAlpha (Text.isAlpha_of_isUpper capital)]

/-- Identifiers are not empty, and consist of their characters. -/
theorem all_of_isIdentifier {word : List Char} (identifier : isIdentifier word = true) :
    word ≠ [] ∧ ∀ c ∈ word, isWordChar c = true := by
  cases word with
  | nil => cases identifier
  | cons c rest =>
      rw [isIdentifier, Bool.and_eq_true, List.all_eq_true] at identifier
      refine ⟨List.cons_ne_nil _ _, fun d member => ?_⟩
      rcases List.mem_cons.mp member with rfl | inRest
      · rcases (Bool.or_eq_true _ _).mp identifier.1 with letter | underscore
        · rw [isWordChar, Text.isLetterOrNumeral_of_isLetter letter, Bool.true_or]
        · rw [isWordChar, underscore, Bool.or_true]
      · exact identifier.2 d inRest

/-- Identifiers have no separators. -/
theorem notMem_of_isIdentifier {word : List Char} (identifier : isIdentifier word = true)
    {separator : Char} (notWord : isWordChar separator = false) : separator ∉ word := by
  intro member
  rw [(all_of_isIdentifier identifier).2 separator member] at notWord
  cases notWord

theorem any_isQuote_of_word {word : List Char}
    (chars : ∀ c ∈ word, isWordChar c = true ∨ isBlank c = true) :
    word.any isQuote = false := by
  rw [List.any_eq_false]
  intro c member quote
  rcases chars c member with isWord | blank
  · rw [isQuote_of_isWordChar isWord] at quote
    cases quote
  · rw [isBlank_of_isQuote quote] at blank
    cases blank

/-! ## Names written anew -/

/-- The words that the keywords of clauses consist of, but for the first. -/
def clauseWords : List (List Char) :=
  ["from".toList, "where".toList, "order".toList, "by".toList]

/-- An identifier that is no word of a keyword in any case. -/
structure NewName (name : List Char) : Prop where
  identifier : isIdentifier name = true
  notKeyword : name.map Char.toLower ∉ clauseWords

instance (name : List Char) : Decidable (NewName name) :=
  decidable_of_iff (isIdentifier name = true ∧ name.map Char.toLower ∉ clauseWords)
    ⟨fun both => ⟨both.1, both.2⟩, fun new => ⟨new.identifier, new.notKeyword⟩⟩

/-- The way in which a name is written. There may be blanks in it. -/
structure Spelling (name : List Char) : Prop where
  first : ∃ c rest, name = c :: rest ∧ isWordChar c = true
  last : ∃ before c, name = before ++ [c] ∧ isWordChar c = true
  chars : ∀ c ∈ name, isWordChar c = true ∨ isBlank c = true

/-- An identifier is written without blanks. -/
theorem spelling_of_isIdentifier {word : List Char} (identifier : isIdentifier word = true) :
    Spelling word := by
  obtain ⟨notEmpty, chars⟩ := all_of_isIdentifier identifier
  refine ⟨?_, ?_, fun c member => .inl (chars c member)⟩
  · obtain ⟨c, rest, rfl⟩ := List.exists_cons_of_ne_nil notEmpty
    exact ⟨c, rest, rfl, chars c (List.mem_cons_self ..)⟩
  · refine ⟨word.dropLast, word.getLast notEmpty, (List.dropLast_concat_getLast notEmpty).symm, ?_⟩
    exact chars _ (List.getLast_mem notEmpty)

/-- A text and another one in which names are written anew, in or behind a word. -/
inductive Respelled : Bool → List Char → List Char → Prop where
  | nil {inWord : Bool} : Respelled inWord [] []
  | keep {inWord : Bool} {c : Char} {text other : List Char}
      (others : Respelled (isWordChar c) text other) : Respelled inWord (c :: text) (c :: other)
  | name {old new text other : List Char} (was : Spelling old) (becomes : NewName new)
      (ends : ∀ c ∈ other.head?, isWordChar c = false) (others : Respelled true text other) :
      Respelled false (old ++ text) (new ++ other)

/-- A text and another one in which names are written anew, of which both begin with the same
character, no part of a word, or are empty. -/
inductive Follows : List Char → List Char → Prop where
  | nil : Follows [] []
  | cons {c : Char} {text other : List Char} (separator : isWordChar c = false)
      (others : Respelled false text other) : Follows (c :: text) (c :: other)

theorem Follows.respelled {inWord : Bool} {text other : List Char} (follows : Follows text other) :
    Respelled inWord text other := by
  cases follows with
  | nil => exact .nil
  | cons separator others => exact .keep (separator ▸ others)

theorem Follows.ends {text other : List Char} (follows : Follows text other) :
    ∀ c ∈ other.head?, isWordChar c = false := by
  cases follows with
  | nil => exact nofun
  | cons separator others =>
      rintro _ ⟨⟩
      exact separator

/-- A written name opens and closes no literal. -/
theorem Spelling.any_isQuote {name : List Char} (spelling : Spelling name) :
    name.any isQuote = false :=
  any_isQuote_of_word spelling.chars

theorem NewName.spelling {name : List Char} (becomes : NewName name) : Spelling name :=
  spelling_of_isIdentifier becomes.identifier

namespace Respelled

variable {inWord : Bool} {text other more others : List Char}

theorem refl (inWord : Bool) (text : List Char) : Respelled inWord text text := by
  induction text generalizing inWord with
  | nil => exact .nil
  | cons c rest ih => exact .keep (ih _)

theorem eq_nil (respelled : Respelled inWord text []) : text = [] := by
  generalize empty : ([] : List Char) = written at respelled
  cases respelled with
  | nil => rfl
  | keep others => cases empty
  | name was becomes ends others =>
      have notEmpty := (all_of_isIdentifier becomes.identifier).1
      exact absurd (List.append_eq_nil_iff.mp empty.symm).1 notEmpty

/-- Two such texts one behind the other. -/
theorem append (respelled : Respelled inWord text other) (follows : Follows more others) :
    Respelled inWord (text ++ more) (other ++ others) := by
  induction respelled with
  | nil => exact follows.respelled
  | keep _ ih => exact .keep ih
  | @name old new text other was becomes ends _ ih =>
      rw [List.append_assoc, List.append_assoc]
      refine .name was becomes ?_ ih
      cases other with
      | nil => exact follows.ends
      | cons c rest => exact ends

/-- What stands before such a text is kept, if no word ends on it. -/
theorem behind (respelled : Respelled false text other) (front : List Char) {separator : Char}
    (notWord : isWordChar separator = false) :
    Respelled inWord (front ++ separator :: text) (front ++ separator :: other) :=
  (refl inWord front).append (.cons notWord respelled)

/-! ### Literals and normal forms -/

/-- **The literals are in the same places.** -/
theorem afterText_eq (respelled : Respelled inWord text other) {open_ : Option Char}
    (marks : ∀ mark ∈ open_, isQuote mark = true) :
    afterText open_ other = afterText open_ text := by
  induction respelled generalizing open_ with
  | nil => rfl
  | keep _ ih => exact ih (isQuote_of_afterChar marks _)
  | name was becomes _ _ ih =>
      rw [afterText_append, afterText_append, afterText_of_noQuotes marks was.any_isQuote,
        afterText_of_noQuotes marks becomes.spelling.any_isQuote, ih marks]

/-- A written name leaves no gap. -/
theorem gapAfter_of_spelling {name : List Char} (spelling : Spelling name) (gap : Gap)
    (open_ : Option Char) : gapAfter gap open_ name = .closed := by
  obtain ⟨before, c, rfl, isWord⟩ := spelling.last
  rw [gapAfter_append]
  cases afterText open_ before with
  | none =>
      rw [gapAfter_cons, isBlank_of_isWordChar isWord]
      rfl
  | some quote => rfl

/-- An identifier in front of a normal form. -/
theorem normal_of_identifier {gap : Gap} {open_ : Option Char} {name : List Char}
    (notEmpty : name ≠ []) (chars : ∀ c ∈ name, isWordChar c = true)
    (settled : open_ = none ∨ gap = .closed) (marks : ∀ mark ∈ open_, isQuote mark = true)
    (normal : Normal .closed open_ text) :
    Normal gap open_ (name ++ text) := by
  induction name generalizing gap with
  | nil => exact absurd rfl notEmpty
  | cons c rest ih =>
      have isWord := chars c (List.mem_cons_self ..)
      have kept := afterChar_of_not_isQuote marks (isQuote_of_isWordChar isWord)
      have onwards : Normal .closed (afterChar open_ c) (rest ++ text) := by
        rw [kept]
        by_cases empty : rest = []
        · rw [empty]
          exact normal
        · exact ih empty (fun d member => chars d (List.mem_cons_of_mem _ member)) (.inr rfl)
      cases open_ with
      | none => exact .char (isBlank_of_isWordChar isWord) onwards
      | some quote =>
          obtain rfl := settled.resolve_left nofun
          exact .inside onwards

/-- **The new text is in normal form where the old one is.** -/
theorem normal (respelled : Respelled inWord text other) {gap : Gap} {open_ : Option Char}
    (settled : open_ = none ∨ gap = .closed) (marks : ∀ mark ∈ open_, isQuote mark = true)
    (normal : Normal gap open_ text) : Normal gap open_ other := by
  induction respelled generalizing gap open_ with
  | nil => exact normal
  | keep _ ih =>
      have marksToo := isQuote_of_afterChar marks
      cases normal with
      | inside others => exact .inside (ih (.inr rfl) (marksToo _) others)
      | space others => exact .space (ih (.inl rfl) isQuote_of_none others)
      | char notBlank others => exact .char notBlank (ih (.inr rfl) (marksToo _) others)
  | name was becomes _ _ ih =>
      have rest := normal.rest
      rw [gapAfter_of_spelling was gap open_, afterText_of_noQuotes marks was.any_isQuote] at rest
      obtain ⟨notEmpty, chars⟩ := all_of_isIdentifier becomes.identifier
      exact normal_of_identifier notEmpty chars settled marks (ih (.inr rfl) marks rest)

/-! ### Keywords -/

/-- A space outside names stands in the old text too. -/
theorem split_space {before after : List Char}
    (respelled : Respelled inWord text (before ++ ' ' :: after)) :
    ∃ front back, text = front ++ ' ' :: back ∧ Respelled inWord front before ∧
      Respelled false back after := by
  generalize whole : before ++ ' ' :: after = written at respelled
  induction respelled generalizing before with
  | nil => exact absurd (List.append_eq_nil_iff.mp whole).2 nofun
  | @keep inWord c text other kept ih =>
      cases before with
      | nil =>
          obtain ⟨rfl, rfl⟩ := List.cons.inj whole
          exact ⟨[], text, rfl, .nil, kept⟩
      | cons c rest =>
          obtain ⟨rfl, same⟩ := List.cons.inj whole
          obtain ⟨front, back, rfl, first, second⟩ := ih same
          exact ⟨c :: front, back, rfl, .keep first, second⟩
  | @name old new text other was becomes ends kept ih =>
      rcases List.append_eq_append_iff.mp whole with ⟨inner, isNew, rest⟩ | ⟨outer, rfl, same⟩
      · cases inner with
        | nil =>
            obtain ⟨front, back, rfl, first, second⟩ := @ih [] rest
            rw [List.append_nil] at isNew
            obtain rfl := first.eq_nil
            refine ⟨old, back, rfl, ?_, second⟩
            have alone : Respelled false (old ++ []) (new ++ []) := .name was becomes nofun .nil
            rw [List.append_nil, List.append_nil, isNew] at alone
            exact alone
        | cons c inner =>
            obtain ⟨rfl, _⟩ := List.cons.inj rest
            have space := (all_of_isIdentifier becomes.identifier).2 ' ' (by rw [isNew]; simp)
            exact absurd space (by decide)
      · obtain ⟨front, back, rfl, first, second⟩ := ih same.symm
        refine ⟨old ++ front, back, (List.append_assoc _ _ _).symm,
          .name was becomes ?_ first, second⟩
        cases outer with
        | nil => exact nofun
        | cons c rest =>
            rw [same] at ends
            exact ends

/-- A letter that does not begin a new name is kept, and the word goes on behind it. -/
theorem kept_letter {d : Char} {rest : List Char} (isWord : isWordChar d = true)
    (respelled : Respelled inWord text other) (begins : d :: rest <+: lowered other) :
    (∃ c back behind, text = c :: back ∧ other = c :: behind ∧ c.toLower = d ∧
      rest <+: lowered behind ∧
        Respelled true back behind) ∨
      inWord = false ∧ ∃ new behind, other = new ++ behind ∧ NewName new ∧
        ∀ c ∈ behind.head?, isWordChar c = false := by
  cases respelled with
  | nil =>
      obtain ⟨rfl, _⟩ := List.cons_prefix_cons.mp begins
      exact absurd isWord (by decide)
  | @keep _ c text other kept =>
      obtain ⟨rfl, onwards⟩ := List.cons_prefix_cons.mp begins
      rw [isWordChar_toLower] at isWord
      rw [isWord] at kept
      exact .inl ⟨c, text, other, rfl, rfl, rfl, onwards, kept⟩
  | name _ becomes ends _ => exact .inr ⟨rfl, _, _, rfl, becomes, ends⟩

/-- Within a word everything is kept. -/
theorem kept_word {word rest : List Char} (letters : ∀ c ∈ word, isWordChar c = true)
    (respelled : Respelled true text other) (begins : word ++ ' ' :: rest <+: lowered other) :
    ∃ front back behind, text = front ++ back ∧ other = front ++ behind ∧
      front.map Char.toLower = word ∧ ' ' :: rest <+: lowered behind ∧
      ∃ inWord, Respelled inWord back behind := by
  induction word generalizing text other with
  | nil => exact ⟨[], text, other, rfl, rfl, rfl, begins, true, respelled⟩
  | cons d word ih =>
      rcases respelled.kept_letter (letters d (List.mem_cons_self ..)) begins with
        ⟨c, text, other, rfl, rfl, rfl, onwards, kept⟩ | ⟨outside, _⟩
      · obtain ⟨front, back, behind, rfl, rfl, rfl, more, others⟩ :=
          ih (fun e member => letters e (List.mem_cons_of_mem _ member)) kept onwards
        exact ⟨c :: front, back, behind, rfl, rfl, rfl, more, others⟩
      · cases outside

/-- A text in small letters begins with the same word. -/
theorem takeWhile_lowered {word behind : List Char} (chars : ∀ c ∈ word, isWordChar c = true)
    (ends : ∀ c ∈ behind.head?, isWordChar c = false) :
    (lowered (word ++ behind)).takeWhile isWordChar = word.map Char.toLower := by
  have isWord : ∀ c ∈ word.map Char.toLower, isWordChar c = true := by
    intro c member
    obtain ⟨d, inWord, rfl⟩ := List.mem_map.mp member
    rw [isWordChar_toLower]
    exact chars d inWord
  rw [lowered, List.map_append, List.append_assoc, List.takeWhile_append_of_pos isWord]
  cases behind with
  | nil =>
      have space : ([' '] : List Char).takeWhile isWordChar = [] := by decide
      rw [List.map_nil, List.nil_append, space, List.append_nil]
  | cons c rest =>
      have notWord := ends c rfl
      rw [← isWordChar_toLower] at notWord
      rw [List.map_cons, List.cons_append,
        List.takeWhile_cons_of_neg (Bool.eq_false_iff.mp notWord), List.append_nil]

/-- **A word of a keyword is kept.** -/
theorem kept_clauseWord {word rest : List Char} (isClauseWord : word ∈ clauseWords)
    (respelled : Respelled false text other) (begins : word ++ ' ' :: rest <+: lowered other) :
    ∃ front back behind, text = front ++ back ∧ other = front ++ behind ∧
      front.map Char.toLower = word ∧ ' ' :: rest <+: lowered behind ∧
      ∃ inWord, Respelled inWord back behind := by
  have letters : ∀ c ∈ word, isWordChar c = true := by
    have all : (clauseWords.all fun word => word.all isWordChar) = true := by decide
    exact List.all_eq_true.mp (List.all_eq_true.mp all word isClauseWord)
  obtain ⟨d, others, rfl⟩ : ∃ d others, word = d :: others := by
    have notEmpty : ∀ word ∈ clauseWords, word ≠ [] := by decide
    exact List.exists_cons_of_ne_nil (notEmpty word isClauseWord)
  rcases respelled.kept_letter (letters d (List.mem_cons_self ..)) begins with
    ⟨c, text, other, rfl, rfl, rfl, onwards, kept⟩ | ⟨_, new, behind, rfl, becomes, ends⟩
  · obtain ⟨front, back, behind, rfl, rfl, rfl, more, others⟩ :=
      kept_word (fun e member => letters e (List.mem_cons_of_mem _ member)) kept onwards
    exact ⟨c :: front, back, behind, rfl, rfl, rfl, more, others⟩
  · -- a new name would be the word of a keyword
    obtain ⟨left, whole⟩ := begins
    have same := takeWhile_lowered (all_of_isIdentifier becomes.identifier).2 ends
    have space : (' ' :: (rest ++ left)).takeWhile isWordChar = [] :=
      List.takeWhile_cons_of_neg (by decide)
    rw [← whole, List.append_assoc, List.takeWhile_append_of_pos letters,
      @List.cons_append _ _ rest, space, List.append_nil] at same
    exact absurd (same ▸ isClauseWord) becomes.notKeyword

/-- Behind a word that is kept a space is kept. -/
theorem kept_space {rest : List Char} (respelled : Respelled inWord text other)
    (begins : ' ' :: rest <+: lowered other) :
    (text = [] ∧ other = []) ∨
      ∃ back behind, text = ' ' :: back ∧ other = ' ' :: behind ∧ rest <+: lowered behind ∧
        Respelled false back behind := by
  cases other with
  | nil => exact .inl ⟨respelled.eq_nil, rfl⟩
  | cons c behind =>
      obtain ⟨isSpace, onwards⟩ := List.cons_prefix_cons.mp begins
      obtain rfl := (Text.toLower_eq_iff (by decide)).mp isSpace.symm
      obtain ⟨front, back, rfl, first, second⟩ := @split_space inWord text [] behind respelled
      obtain rfl := first.eq_nil
      exact .inr ⟨back, behind, rfl, rfl, onwards, second⟩

/-- **A keyword at the start of the new text was in the old one.** -/
theorem keyword {clause : Clause} (later : clause ≠ .select)
    (respelled : Respelled false text other) (begins : clause.word <+: lowered other) :
    clause.word <+: lowered text := by
  have single : ∀ {word text other : List Char}, word ∈ clauseWords → Respelled false text other →
      word ++ [' '] <+: lowered other → word ++ [' '] <+: lowered text := by
    intro word text other isClauseWord respelled begins
    obtain ⟨front, back, behind, rfl, rfl, rfl, more, inWord, others⟩ :=
      kept_clauseWord isClauseWord respelled begins
    have space : [' '] <+: lowered back := by
      rcases others.kept_space more with ⟨rfl, _⟩ | ⟨back, _, rfl, _⟩
      · exact List.prefix_rfl
      · exact List.prefix_append [' '] _
    rw [lowered, List.map_append, List.append_assoc]
    exact (List.prefix_append_right_inj _).mpr space
  cases clause with
  | select => exact absurd rfl later
  | table => exact single (by decide) respelled begins
  | filter => exact single (by decide) respelled begins
  | order =>
      have split : Clause.order.word = "order".toList ++ ' ' :: ("by".toList ++ [' ']) := rfl
      rw [split] at begins ⊢
      obtain ⟨front, back, behind, rfl, rfl, same, more, inWord, others⟩ :=
        kept_clauseWord (by decide) respelled begins
      rw [lowered, List.map_append, List.append_assoc, same]
      refine (List.prefix_append_right_inj _).mpr ?_
      rcases others.kept_space more with ⟨_, rfl⟩ | ⟨back, behind, rfl, rfl, onwards, others⟩
      · exact absurd (List.cons_prefix_cons.mp more).2 (by decide)
      · exact List.cons_prefix_cons.mpr ⟨rfl, single (by decide) others onwards⟩

/-- **A text that is free of a keyword stays so.** -/
theorem free {clause : Clause} (later : clause ≠ .select) (respelled : Respelled inWord text other)
    (follows : Follows more others) {open_ : Option Char}
    (marks : ∀ mark ∈ open_, isQuote mark = true) (free : Free clause.word open_ text more) :
    Free clause.word open_ other others := by
  intro before after split notEmpty closed here
  obtain ⟨rest, begins⟩ := exists_of_opening clause.word_ne_nil here
  obtain ⟨c, after, rfl⟩ := List.exists_cons_of_ne_nil notEmpty
  obtain ⟨rfl, rfl⟩ := List.cons.inj begins
  rw [split] at respelled
  obtain ⟨front, back, rfl, first, second⟩ := respelled.split_space
  rw [first.afterText_eq marks] at closed
  refine free front (' ' :: back) rfl nofun closed ?_
  obtain ⟨_, onwards⟩ := List.cons_prefix_cons.mp here
  exact List.cons_prefix_cons.mpr ⟨rfl, (second.append follows).keyword later onwards⟩

end Respelled

end EntityQuery.Query

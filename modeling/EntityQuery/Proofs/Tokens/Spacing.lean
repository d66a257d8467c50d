import EntityQuery.Proofs.Clauses.Solid
import EntityQuery.Proofs.Renaming.Tokens
import EntityQuery.Proofs.Tokens.Literals

/-!
# Tokens with spaces between them

A space does not take part in a token. So a text that is read as a token where it stands is read as
that token before a space as well, and at the end of a text (`FirstToken.before_space`): no mark
reaches over the space, no word and no literal goes on behind it. Tokens of any texts may therefore
be written one after another with a space between neighbours, and are read again, neither merged nor
divided (`lexed_spaced`).

A text with no blank, no quotation mark and no mark in it is one token (`PlainText.isToken`), also
behind an identifier and a dot (`PlainText.behind_dot`).
-/

set_option autoImplicit false

namespace EntityQuery.Query

open Text (isBlank joinChars)

variable {marks : MarkSet} {text after other front : List Char}

/-! ## Before a space -/

/-- A text is empty, or begins with a space. -/
def BeginsApart (text : List Char) : Prop :=
  ∀ c ∈ text.head?, c = ' '

/-- No mark reaches over a space. -/
theorem MarkSet.prefix_of_apart {mark : List Char} (listed : mark ∈ marks.marks)
    (apart : BeginsApart other) (begins : mark <+: front ++ other) : mark <+: front := by
  rcases List.prefix_or_prefix_of_prefix begins (List.prefix_append front other) with
    inside | ⟨rest, rfl⟩
  · exact inside
  · cases rest with
    | nil => simp
    | cons c rest =>
        -- the mark would have the space
        obtain ⟨more, behind⟩ := (List.prefix_append_right_inj _).mp begins
        obtain rfl := apart c (behind ▸ rfl)
        have visible := (MarkSet.visible listed ' ' (by simp)).1
        rw [Text.isBlank_space] at visible
        cases visible

/-- A mark stays the first that fits. -/
theorem MarkSet.markAt?_before_space {mark : List Char}
    (found : marks.markAt? (mark ++ after) = some mark) (apart : BeginsApart other) :
    marks.markAt? (mark ++ other) = some mark := by
  obtain ⟨_, earlier, later, split, none_fits⟩ := List.find?_eq_some_iff_append.mp found
  refine List.find?_eq_some_iff_append.mpr
    ⟨List.isPrefixOf_iff_prefix.mpr (List.prefix_append _ _), earlier, later, split,
      fun one member => ?_⟩
  have listed : one ∈ marks.marks := split ▸ List.mem_append_left _ member
  have misfits := none_fits one member
  rw [Bool.not_eq_true', Bool.eq_false_iff, Ne, List.isPrefixOf_iff_prefix] at misfits ⊢
  exact fun fits => misfits ((prefix_of_apart listed apart fits).trans (List.prefix_append _ _))

/-- A word ends before a space, and before the end of a text. -/
theorem endsWord_of_apart (apart : BeginsApart text) : endsWord marks text = true := by
  cases text with
  | nil => rfl
  | cons c rest =>
      rw [apart c rfl, endsWord_cons, Text.isBlank_space, Bool.true_or, Bool.true_or]

/-- A word goes on where no mark begins and no blank or quotation mark stands. -/
theorem goesOn_before_space {c : Char} (notBlank : isBlank c = false) (noQuote : isQuote c = false)
    (noMark : ∀ mark ∈ marks.marks, ¬ mark <+: c :: front) (apart : BeginsApart other) :
    endsWord marks (c :: front ++ other) = false := by
  have none_fits : marks.markAt? (c :: (front ++ other)) = none := by
    refine List.find?_eq_none.mpr fun mark listed fits => ?_
    rw [List.isPrefixOf_iff_prefix, ← List.cons_append] at fits
    exact noMark mark listed (MarkSet.prefix_of_apart listed apart fits)
  rw [List.cons_append, endsWord_cons, notBlank, noQuote, none_fits]
  rfl

/-- **A token is one before a space**, and at the end of a text. -/
theorem FirstToken.before_space {lexeme : Lexeme} (first : FirstToken marks lexeme after)
    (apart : BeginsApart other) : FirstToken marks lexeme other := by
  cases first with
  | @literal quote body _ opens closes =>
      refine .literal opens (literalRest?_append closes fun same => ?_)
      rw [apart quote same] at opens
      cases opens
  | mark notBlank noQuote found =>
      exact .mark notBlank noQuote (MarkSet.markAt?_before_space found apart)
  | @word word _ notEmpty ends =>
      have visible := visible_of_wordRest ends
      have goesOn := (wordRest_eq_iff.mp ends).1
      refine .word notEmpty
        (wordRest_eq_iff.mpr ⟨fun front rest split rest_ne => ?_, endsWord_of_apart apart⟩)
      obtain ⟨c, rest, rfl⟩ := List.exists_cons_of_ne_nil rest_ne
      obtain ⟨notBlank, noQuote⟩ :=
        visible c (split ▸ List.mem_append_right front List.mem_cons_self)
      refine goesOn_before_space notBlank noQuote (fun mark listed fits => ?_) apart
      have noMark := goesOn front (c :: rest) split rest_ne
      rw [List.cons_append, endsWord_cons, Bool.or_eq_false_iff, Option.isSome_eq_false_iff,
        Option.isNone_iff_eq_none] at noMark
      exact List.find?_eq_none.mp noMark.2 mark listed
        (List.isPrefixOf_iff_prefix.mpr (fits.trans (List.prefix_append (c :: rest) _)))

/-- Somewhere the lexeme is read as a token. -/
def IsToken (marks : MarkSet) (lexeme : Lexeme) : Prop :=
  ∃ after, FirstToken marks lexeme after

/-! ## Plain texts -/

/-- A text with no blank, no quotation mark and no mark in it. -/
def PlainText (marks : MarkSet) (text : List Char) : Prop :=
  Bare text ∧ ∀ mark ∈ marks.marks, ¬ mark <:+: text

instance (marks : MarkSet) (text : List Char) : Decidable (PlainText marks text) :=
  inferInstanceAs (Decidable (_ ∧ _))

/-- What has none of the characters of a mark does not begin it. -/
theorem infix_of_infix_append {mark : List Char} (notEmpty : mark ≠ [])
    (none : ∀ c ∈ front, c ∉ mark) (inside : mark <:+: front ++ text) : mark <:+: text := by
  induction front with
  | nil => exact inside
  | cons c front ih =>
      rcases List.infix_cons_iff.mp inside with begins | later
      · obtain ⟨d, rest, rfl⟩ := List.exists_cons_of_ne_nil notEmpty
        obtain ⟨rfl, _⟩ := List.cons_prefix_cons.mp begins
        exact absurd List.mem_cons_self (none d List.mem_cons_self)
      · exact ih (fun d member => none d (List.mem_cons_of_mem _ member)) later

/-- An identifier, a dot and a plain text make up a plain text. -/
theorem PlainText.behind_dot {word : List Char} (identifier : isIdentifier word = true)
    (plain : PlainText marks text) : PlainText marks (word ++ '.' :: text) := by
  have chars := (all_of_isIdentifier identifier).2
  constructor
  · intro c member
    rcases List.mem_append.mp member with inWord | later
    · exact ⟨isBlank_of_isWordChar (chars c inWord), isQuote_of_isWordChar (chars c inWord)⟩
    · rcases List.mem_cons.mp later with rfl | inText
      · exact ⟨by decide, by decide⟩
      · exact plain.1 c inText
  · intro mark listed inside
    have noDot : '.' ∉ mark := by
      have none : ∀ mark ∈ marks.marks, '.' ∉ mark := by cases marks <;> decide
      exact none mark listed
    rw [List.append_cons] at inside
    have notEmpty := MarkSet.ne_nil_of_mem listed
    refine plain.2 mark listed (infix_of_infix_append notEmpty (fun c member => ?_) inside)
    rcases List.mem_append.mp member with inWord | dot
    · intro inMark
      have notWord := MarkSet.separators listed c inMark
      rw [chars c inWord] at notWord
      cases notWord
    · rwa [List.mem_singleton.mp dot]

/-- A plain text is a token. -/
theorem PlainText.isToken (plain : PlainText marks text) (notEmpty : text ≠ []) :
    IsToken marks ⟨kindOfWord text, text⟩ := by
  refine ⟨[], .word notEmpty (wordRest_eq_iff.mpr ⟨fun front rest split rest_ne => ?_, rfl⟩)⟩
  obtain ⟨c, rest, rfl⟩ := List.exists_cons_of_ne_nil rest_ne
  obtain ⟨notBlank, noQuote⟩ := plain.1 c (split ▸ List.mem_append_right front List.mem_cons_self)
  refine goesOn_before_space notBlank noQuote
    (fun mark listed begins => plain.2 mark listed ?_) nofun
  exact split ▸ begins.isInfix.trans (List.suffix_append front (c :: rest)).isInfix

/-! ## Tokens one after another -/

/-- What a text is read as are tokens. -/
theorem Lexed.isToken {lexemes : List Lexeme} (lexed : Lexed marks text lexemes) :
    ∀ lexeme ∈ lexemes, IsToken marks lexeme := by
  induction lexed with
  | nil => exact fun _ member => nomatch member
  | blank _ _ ih => exact ih
  | token first _ ih =>
      intro other member
      rcases List.mem_cons.mp member with rfl | later
      · exact ⟨_, first⟩
      · exact ih other later

/-- **Tokens with a space between neighbours are read again.** -/
theorem lexed_spaced {lexemes : List Lexeme} (tokens : ∀ lexeme ∈ lexemes, IsToken marks lexeme) :
    Lexed marks (joinChars ' ' (lexemes.map Lexeme.text)) lexemes := by
  induction lexemes with
  | nil => exact .nil
  | cons lexeme rest ih =>
      obtain ⟨_, first⟩ := tokens lexeme List.mem_cons_self
      have others := ih fun one member => tokens one (List.mem_cons_of_mem _ member)
      cases rest with
      | nil =>
          have alone : Lexed marks (lexeme.text ++ []) [lexeme] :=
            .token (first.before_space nofun) .nil
          rwa [List.append_nil] at alone
      | cons next more =>
          have apart : BeginsApart (' ' :: joinChars ' ' ((next :: more).map Lexeme.text)) := by
            rintro _ ⟨⟩
            rfl
          exact .token (first.before_space apart) (.blank Text.isBlank_space others)

end EntityQuery.Query

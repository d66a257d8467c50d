import EntityQuery.Proofs.Tokens.Lexer
import EntityQuery.Proofs.Tokens.Literals

/-!
# Tokens and the texts they stand in

The tokens of a text stand in it one behind the other and leave out nothing but blanks (`Lossless`).
What a token is can be told from the text around it (`Shaped`): a literal is closed by a quotation
mark that stands alone, a mark is the longest one that stands at its place, and a word goes as far
to both sides as no blank, quotation mark or punctuation mark begins.

While a text is scanned, what has been read ends where a new token may begin (`Parted`). With that a
text is covered by its tokens step by step (`Covered`), and `Lexer.read_lossless` follows for every
lexer, whatever it has read before.
-/

set_option autoImplicit false

namespace EntityQuery.Query

open Text (isBlank octets)

variable {marks : MarkSet} {text before after : List Char} {tokens : List Token}

/-! ## What tokens look like -/

/-- No word goes on into the text: a blank, a quotation mark or a punctuation mark begins it. -/
inductive Breaks (marks : MarkSet) : List Char → Prop where
  | blank {c : Char} {rest : List Char} (blank : isBlank c = true) : Breaks marks (c :: rest)
  | quote {c : Char} {rest : List Char} (isMark : isQuote c = true) : Breaks marks (c :: rest)
  | mark {mark rest : List Char} (listed : mark ∈ marks.marks) : Breaks marks (mark ++ rest)

/-- A literal in front of a text: its quotation mark is in front and at the end, stands in between
in pairs only, and does not follow. -/
def IsLiteral (lexeme after : List Char) : Prop :=
  ∃ quote inner, lexeme = quote :: (inner ++ [quote]) ∧ isQuote quote = true ∧ Doubled quote inner ∧
    after.head? ≠ some quote

/-- A punctuation mark in front of a text: it is the longest of the set that stands there. -/
structure IsMark (marks : MarkSet) (lexeme after : List Char) : Prop where
  listed : lexeme ∈ marks.marks
  longest : ∀ other ∈ marks.marks, other <+: lexeme ++ after → other.length ≤ lexeme.length

/-- A word between two texts: it breaks nowhere and cannot be made longer on either side. -/
structure IsWord (marks : MarkSet) (before lexeme after : List Char) : Prop where
  unbroken : ∀ front rest, lexeme = front ++ rest → rest ≠ [] → ¬ Breaks marks (rest ++ after)
  begins : ∀ c, before.getLast? = some c → Breaks marks (c :: (lexeme ++ after))
  ends : after = [] ∨ Breaks marks after

/-- What a token of a kind looks like between two texts. The kind of a word can be told from the
word. -/
def Shaped (marks : MarkSet) (kind : TokenKind) (before lexeme after : List Char) : Prop :=
  match kind with
  | .literal => IsLiteral lexeme after
  | .mark => IsMark marks lexeme after
  | .word | .path | .number => IsWord marks before lexeme after ∧ kind = kindOfWord lexeme

/-- A token between two texts: its place is that of its text, in octets. -/
structure Stands (marks : MarkSet) (token : Token) (before after : List Char) : Prop where
  first_eq : token.first = octets before
  last_eq : token.last = octets before + octets token.lexeme.toList
  shaped : Shaped marks token.kind before token.lexeme.toList after

/-- **A text is nothing but its tokens, in their order, and blanks.** -/
structure Lossless (marks : MarkSet) (text : List Char) (tokens : List Token) : Prop where
  nonempty : ∀ token ∈ tokens, token.first < token.last
  ordered : tokens.Pairwise fun token later => token.last ≤ later.first
  stands : ∀ token ∈ tokens, ∃ before after,
    text = before ++ token.lexeme.toList ++ after ∧ Stands marks token before after
  blank : ∀ before c after, text = before ++ c :: after →
    (∀ token ∈ tokens, ¬(token.first ≤ octets before ∧ octets before < token.last)) →
    isBlank c = true

/-! ## Where words end -/

/-- A word ends at the end of the text and where a break is. -/
theorem endsWord_iff : endsWord marks text = true ↔ text = [] ∨ Breaks marks text := by
  constructor
  · intro ends
    cases text with
    | nil => exact .inl rfl
    | cons c rest =>
        rw [endsWord_cons, Bool.or_eq_true, Bool.or_eq_true] at ends
        rcases ends with (blank | quote) | found
        · exact .inr (.blank blank)
        · exact .inr (.quote quote)
        · obtain ⟨mark, found⟩ := Option.isSome_iff_exists.mp found
          obtain ⟨listed, left, whole⟩ := MarkSet.mem_of_markAt? found
          rw [← whole]
          exact .inr (.mark listed)
  · rintro (rfl | breaks)
    · rfl
    · cases breaks with
      | blank blank => rw [endsWord_cons, blank, Bool.true_or, Bool.true_or]
      | quote isMark => rw [endsWord_cons, isMark, Bool.or_true, Bool.true_or]
      | @mark mark rest listed =>
          have found : (marks.markAt? (mark ++ rest)).isSome = true := by
            rw [MarkSet.markAt?, List.find?_isSome]
            exact ⟨mark, listed, List.isPrefixOf_iff_prefix.mpr (List.prefix_append mark rest)⟩
          obtain ⟨c, inner, rfl⟩ := List.exists_cons_of_ne_nil (MarkSet.ne_nil_of_mem listed)
          rw [List.cons_append] at found ⊢
          rw [endsWord_cons, found, Bool.or_true]

/-- The last character of a mark is a mark. -/
theorem MarkSet.last_listed {mark : List Char} {c : Char} (listed : mark ∈ marks.marks)
    (last : mark.getLast? = some c) : [c] ∈ marks.marks := by
  have all : ∀ mark ∈ marks.marks, mark.getLast?.all fun c => decide ([c] ∈ marks.marks) := by
    cases marks <;> decide
  have single := all mark listed
  rw [last] at single
  exact of_decide_eq_true single

/-- A mark is listed before those that it starts with. -/
theorem MarkSet.ordered (marks : MarkSet) :
    marks.marks.Pairwise fun earlier later => ¬ earlier <+: later := by
  cases marks <;> decide

/-- **The mark that a text starts with is the longest.** -/
theorem MarkSet.length_le_of_markAt? {mark other : List Char}
    (found : marks.markAt? text = some mark) (listed : other ∈ marks.marks)
    (begins : other <+: text) : other.length ≤ mark.length := by
  obtain ⟨fits, earlier, later, split, missed⟩ := List.find?_eq_some_iff_append.mp found
  rw [List.isPrefixOf_iff_prefix] at fits
  have ordered := MarkSet.ordered marks
  rw [split, List.pairwise_append, List.pairwise_cons] at ordered
  rw [split, List.mem_append, List.mem_cons] at listed
  rcases listed with inFront | rfl | behind
  · have fails := missed other inFront
    rw [Bool.not_eq_true', List.isPrefixOf_iff_prefix.mpr begins] at fails
    cases fails
  · exact Nat.le_refl _
  · rcases Nat.le_total mark.length other.length with longer | shorter
    · exact absurd (List.prefix_of_prefix_length_le fits begins longer) (ordered.2.1.1 other behind)
    · exact shorter

/-! ## Scanned texts are covered -/

/-- Between the two texts a token may begin: the second has a break at its start, or the last
character of the first is one. -/
def Parted (marks : MarkSet) (before after : List Char) : Prop :=
  ∀ c, before.getLast? = some c → endsWord marks after = true ∨ endsWord marks (c :: after) = true

/-- Behind a token another may begin. -/
theorem FirstToken.parted {lexeme : Lexeme} (first : FirstToken marks lexeme after) :
    Parted marks lexeme.text after := by
  intro c last
  cases first with
  | @literal quote body _ opens closes =>
      obtain ⟨inner, rfl, _⟩ := exists_doubled_of_literalRest? closes
      rw [← List.cons_append, List.getLast?_concat] at last
      obtain rfl := Option.some.inj last
      exact .inr (endsWord_iff.mpr (.inr (.quote opens)))
  | mark _ _ found =>
      have single := MarkSet.last_listed (MarkSet.mem_of_markAt? found).1 last
      exact .inr (endsWord_iff.mpr (.inr (.mark single)))
  | word _ ends => exact .inl (wordRest_eq_iff.mp ends).2

/-- **A token that is read where one may begin looks as it should.** -/
theorem FirstToken.shaped {lexeme : Lexeme} (first : FirstToken marks lexeme after)
    (parted : Parted marks before (lexeme.text ++ after)) :
    Shaped marks lexeme.kind before lexeme.text after := by
  cases first with
  | @literal quote body _ opens closes =>
      have alone := head?_ne_of_literalRest? closes
      obtain ⟨inner, rfl, doubled⟩ := exists_doubled_of_literalRest? closes
      exact ⟨quote, inner, rfl, opens, doubled, alone⟩
  | mark _ _ found =>
      exact ⟨(MarkSet.mem_of_markAt? found).1,
        fun other listed => MarkSet.length_le_of_markAt? found listed⟩
  | @word word _ notEmpty ends =>
      obtain ⟨goesOn, stops⟩ := wordRest_eq_iff.mp ends
      have isWord : IsWord marks before word after := by
        refine ⟨fun front rest split rest_ne breaks => ?_, fun c last => ?_, endsWord_iff.mp stops⟩
        · have broken := endsWord_iff.mpr (.inr breaks)
          rw [goesOn front rest split rest_ne] at broken
          cases broken
        · rcases parted c last with broken | broken
          · rw [goesOn [] word rfl notEmpty] at broken
            cases broken
          · exact (endsWord_iff.mp broken).resolve_left nofun
      have told : kindOfWord word = .word ∨ kindOfWord word = .path ∨
          kindOfWord word = .number := by
        rw [kindOfWord]
        split
        · exact .inr (.inr rfl)
        · split
          · exact .inr (.inl rfl)
          · exact .inl rfl
      dsimp only
      rcases told with kind | kind | kind <;> exact kind ▸ ⟨isWord, kind.symm⟩

/-- The tokens cover the text that stands behind another, up to blanks. -/
inductive Covered (marks : MarkSet) : List Char → List Char → List Token → Prop where
  | nil (before : List Char) : Covered marks before [] []
  | blank {before text : List Char} {c : Char} {tokens : List Token} (blank : isBlank c = true)
      (others : Covered marks (before ++ [c]) text tokens) : Covered marks before (c :: text) tokens
  | token {before after : List Char} {token : Token} {tokens : List Token}
      (nonempty : token.lexeme.toList ≠ []) (stands : Stands marks token before after)
      (others : Covered marks (before ++ token.lexeme.toList) after tokens) :
      Covered marks before (token.lexeme.toList ++ after) (token :: tokens)

/-- **The tokens of a text cover it.** -/
theorem Scanned.covered {place : Nat} {outcome : Except TextError (List Token)}
    (scanned : Scanned marks place text outcome) (succeeds : outcome = .ok tokens)
    (behind : place = octets before) (parted : Parted marks before text) :
    Covered marks before text tokens := by
  induction scanned generalizing before tokens with
  | nil =>
      cases succeeds
      exact .nil before
  | @blank place c text outcome blank _ ih =>
      refine .blank blank (ih succeeds ?_ ?_)
      · rw [behind, Text.octets_append, octets, octets, Nat.add_zero]
      · intro d last
        rw [List.getLast?_concat] at last
        obtain rfl := Option.some.inj last
        exact .inr (endsWord_iff.mpr (.inr (.blank blank)))
  | unclosed => cases succeeds
  | @token place lexeme after outcome first _ ih =>
      obtain ⟨others, remaining, rfl⟩ := ok_of_map succeeds
      obtain ⟨c, rest, begins, _⟩ := first.begins
      have nonempty : lexeme.text ≠ [] := begins ▸ List.cons_ne_nil c rest
      have text_eq : (Token.at lexeme.kind lexeme.text place).lexeme.toList = lexeme.text :=
        String.toList_ofList
      have stands : Stands marks (.at lexeme.kind lexeme.text place) before after := by
        refine ⟨behind, ?_, ?_⟩
        · rw [text_eq, ← behind]
          rfl
        · rw [text_eq]
          exact first.shaped parted
      have covered : Covered marks (before ++ lexeme.text) after others := by
        refine ih remaining ?_ ?_
        · rw [behind, Text.octets_append]
        · intro c last
          rw [List.getLast?_append_of_ne_nil _ nonempty] at last
          exact first.parted c last
      change Covered marks before _ (Token.at lexeme.kind lexeme.text place :: others)
      generalize Token.at lexeme.kind lexeme.text place = token at text_eq stands ⊢
      rw [← text_eq] at covered nonempty ⊢
      exact .token nonempty stands covered

/-- Tokens stand behind the text before them, and none is empty. -/
theorem Covered.span (covered : Covered marks before text tokens) :
    ∀ token ∈ tokens, octets before ≤ token.first ∧ token.first < token.last := by
  induction covered with
  | nil => nofun
  | blank _ _ ih =>
      intro token member
      have behind := ih token member
      rw [Text.octets_append] at behind
      omega
  | @token before after token tokens nonempty stands _ ih =>
      intro other member
      rcases List.mem_cons.mp member with rfl | later
      · have size : octets other.lexeme.toList ≠ 0 :=
          fun empty => nonempty (Text.octets_eq_zero_iff.mp empty)
        have first := stands.first_eq
        have last := stands.last_eq
        omega
      · have behind := ih other later
        rw [Text.octets_append] at behind
        omega

/-- Tokens stand one behind the other. -/
theorem Covered.ordered (covered : Covered marks before text tokens) :
    tokens.Pairwise fun token later => token.last ≤ later.first := by
  induction covered with
  | nil => exact .nil
  | blank _ _ ih => exact ih
  | token _ stands others ih =>
      refine .cons (fun later member => ?_) ih
      have behind := (others.span later member).1
      rw [Text.octets_append, ← stands.last_eq] at behind
      exact behind

/-- Each token is found in the text at its place. -/
theorem Covered.stands (covered : Covered marks before text tokens) :
    ∀ token ∈ tokens, ∃ front after,
      before ++ text = front ++ token.lexeme.toList ++ after ∧ Stands marks token front after := by
  induction covered with
  | nil => nofun
  | blank _ _ ih =>
      rw [List.append_assoc] at ih
      exact ih
  | @token before after token _ _ stands _ ih =>
      intro other member
      rcases List.mem_cons.mp member with rfl | later
      · exact ⟨before, after, (List.append_assoc ..).symm, stands⟩
      · rw [← List.append_assoc]
        exact ih other later

/-- What is in no token is blank. -/
theorem Covered.blank_outside (covered : Covered marks before text tokens)
    {front rest : List Char} {c : Char} (split : text = front ++ c :: rest)
    (outside : ∀ token ∈ tokens,
      ¬(token.first ≤ octets (before ++ front) ∧ octets (before ++ front) < token.last)) :
    isBlank c = true := by
  induction covered generalizing front with
  | nil => exact absurd (List.append_eq_nil_iff.mp split.symm).2 nofun
  | blank blank _ ih =>
      cases front with
      | nil =>
          obtain ⟨rfl, _⟩ := List.cons.inj split
          exact blank
      | cons d front =>
          obtain ⟨rfl, remaining⟩ := List.cons.inj split
          refine ih remaining ?_
          rw [List.append_assoc]
          exact outside
  | @token before after token tokens nonempty stands _ ih =>
      rcases List.append_eq_append_iff.mp split with
        ⟨inner, rfl, remaining⟩ | ⟨inner, whole, remaining⟩
      · -- the character stands behind the token
        refine ih remaining fun other member => ?_
        rw [List.append_assoc]
        exact outside other (List.mem_cons_of_mem _ member)
      · cases inner with
        | nil =>
            rw [List.append_nil] at whole
            refine @ih [] remaining.symm fun other member => ?_
            rw [List.append_nil, whole]
            exact outside other (List.mem_cons_of_mem _ member)
        | cons d inner =>
            obtain ⟨rfl, _⟩ := List.cons.inj remaining
            have inside := outside token List.mem_cons_self
            have size := c.utf8Size_pos
            rw [stands.first_eq, stands.last_eq, whole, Text.octets_append, Text.octets_append,
              octets] at inside
            omega

/-! ## What lexers answer -/

/-- **A lexer loses nothing of a text, and its tokens are as long as they can be.** Whatever it has
read before, the text is nothing but its tokens and blanks; and it answers with a problem if and
only if the text leaves a literal open, which is the literal that it reports. -/
theorem Lexer.read_lossless (marks : MarkSet) (earlier : List String) (text : String) :
    (∀ tokens, (((Lexer.new marks).readAll earlier).2.read text).1 = .ok tokens →
      Lossless marks text.toList tokens) ∧
    ∀ problem, (((Lexer.new marks).readAll earlier).2.read text).1 = .error problem ↔
      ∃ before, LeavesOpen text.toList before ∧ problem = .unterminatedLiteral (octets before) := by
  rw [Lexer.read_eq, Lexer.readAll_marks, Lexer.new_marks]
  refine ⟨fun tokens succeeds => ?_, fun problem => ?_⟩
  · have scanned := scanned_tokensFrom marks 0 text.toList
    have covered : Covered marks [] text.toList tokens := scanned.covered succeeds rfl nofun
    refine ⟨fun token member => (covered.span token member).2, covered.ordered, covered.stands, ?_⟩
    intro before c after split outside
    exact covered.blank_outside split outside
  · have reported : tokenize marks text = .error problem ↔ _ := tokensFrom_eq_error_iff
    simpa only [Nat.zero_add] using reported

/-- A lexer that has met an open literal reads the next text as any other does. -/
theorem Lexer.read_lossless_behindProblem :
    Lossless .filter "a>='b''c'".toList
      [⟨.word, "a", 0, 1⟩, ⟨.mark, ">=", 1, 3⟩, ⟨.literal, "'b''c'", 3, 9⟩] :=
  (Lexer.read_lossless .filter ["a 'b"] "a>='b''c'").1 _ (by decide +kernel)

end EntityQuery.Query

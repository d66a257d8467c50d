import EntityQuery.Proofs.Renaming.Resolution
import EntityQuery.Proofs.SelectList.Slices

/-!
# Arguments under other names

A name is written anew at the start of a path and of every argument of a call, the blanks around it
being kept (`renamePiece`). The blanks that may stand within it are no part of the name, so they go
with the old one.

What is written anew is read, without its blanks, as what was read before with another name in the
place of its head (`dropBlanks_renamePiece`, `argumentsOf_renamed`), and apart from the names
nothing is changed in the text (`respelled_renameArguments`).
-/

set_option autoImplicit false

namespace EntityQuery.Query

open Text (isBlank joinChars splitChars splitChars_joinChars mem_joinChars mem_splitChars)

/-- A piece of a select list with another name in the place of its head. The head is read without
blanks, where no literal is open. -/
def renamePiece (σ : String → String) (open_ : Option Char) (piece : List Char) : List Char :=
  let front := piece.takeWhile (· ≠ '.')
  let head := String.ofList (dropBlanks open_ front)
  if σ head = head then piece
  else
    front.takeWhile isBlank ++
      ((σ head).toList ++ ((front.reverse.takeWhile isBlank).reverse ++ piece.dropWhile (· ≠ '.')))

/-- The pieces of a call one after another. -/
def renamePieces (σ : String → String) : Option Char → List (List Char) → List (List Char)
  | _, [] => []
  | open_, piece :: rest => renamePiece σ open_ piece :: renamePieces σ (afterText open_ piece) rest

/-- The arguments of a call, which end at the first closing parenthesis, and what is behind them. -/
def renameArguments (σ : String → String) (open_ : Option Char) (text : List Char) : List Char :=
  joinChars ',' (renamePieces σ open_ (splitChars ',' (text.takeWhile (· ≠ ')')))) ++
    text.dropWhile (· ≠ ')')

/-- A text with another name in the place of its head, as a string. -/
def renameText (σ : String → String) (text : String) : String :=
  String.ofList (renameHead σ text.toList)

variable {σ : String → String} {open_ : Option Char}

/-! ## Names with blanks around them -/

/-- A text that is not all blank has a first character that is no blank. -/
theorem exists_first {text : List Char} {c : Char} (member : c ∈ text)
    (notBlank : isBlank c = false) :
    ∃ first rest, text = text.takeWhile isBlank ++ first :: rest ∧ isBlank first = false := by
  have whole := (text.takeWhile_append_dropWhile (p := isBlank)).symm
  have stops := List.head?_dropWhile_not isBlank text
  cases begins : text.dropWhile isBlank with
  | nil => exact absurd (List.dropWhile_eq_nil_iff.mp begins c member) (by simp [notBlank])
  | cons first rest =>
      rw [begins] at whole stops
      exact ⟨first, rest, whole, by simpa using stops⟩

/-- A text that is not all blank: the blanks at its ends, and between them what begins and ends with
other characters. -/
theorem exists_trimmed {text : List Char} {c : Char} (member : c ∈ text)
    (notBlank : isBlank c = false) :
    ∃ core, text = text.takeWhile isBlank ++ (core ++ (text.reverse.takeWhile isBlank).reverse) ∧
      (∃ first rest, core = first :: rest ∧ isBlank first = false) ∧
      ∃ before last, core = before ++ [last] ∧ isBlank last = false := by
  obtain ⟨first, rest, front, firstNotBlank⟩ := exists_first member notBlank
  obtain ⟨last, before, back, lastNotBlank⟩ :=
    exists_first (List.mem_reverse.mpr (List.mem_cons_self .. : first ∈ first :: rest))
      firstNotBlank
  have notAll : ¬ ((first :: rest).reverse.takeWhile isBlank).length =
      (first :: rest).reverse.length := by
    intro all
    have lengths := congrArg List.length back
    rw [List.length_append, List.length_cons] at lengths
    omega
  have behind : text.reverse.takeWhile isBlank = (first :: rest).reverse.takeWhile isBlank := by
    rw [front, List.reverse_append, List.takeWhile_append, if_neg notAll]
  have whole : first :: rest =
      (before.reverse ++ [last]) ++ ((first :: rest).reverse.takeWhile isBlank).reverse := by
    have reversed := congrArg List.reverse back
    rwa [List.reverse_reverse, List.reverse_append, List.reverse_cons] at reversed
  obtain ⟨d, more, core⟩ : ∃ d more, before.reverse ++ [last] = d :: more :=
    List.exists_cons_of_ne_nil (by simp)
  refine ⟨before.reverse ++ [last], ?_, ⟨d, more, core, ?_⟩, before.reverse, last, rfl,
    lastNotBlank⟩
  · rw [behind, ← whole]
    exact front
  · rw [core, List.cons_append] at whole
    exact (List.cons.inj whole).1 ▸ firstNotBlank

/-- A text without blanks is kept. -/
theorem dropBlanks_eq_self {text : List Char} (noBlanks : ∀ c ∈ text, isBlank c = false) :
    dropBlanks open_ text = text := by
  induction text generalizing open_ with
  | nil => cases open_ <;> rfl
  | cons c rest ih =>
      rw [dropBlanks_cons (noBlanks c (List.mem_cons_self ..)),
        ih fun d member => noBlanks d (List.mem_cons_of_mem _ member)]

/-- In a literal that is not closed all is kept. -/
theorem dropBlanks_of_open {quote : Char} {text : List Char} (isMark : isQuote quote = true)
    (noQuotes : text.any isQuote = false) : dropBlanks (some quote) text = text := by
  induction text with
  | nil => rfl
  | cons c rest ih =>
      rw [List.any_cons, Bool.or_eq_false_iff] at noQuotes
      rw [dropBlanks, afterChar_of_not_isQuote (by rintro _ ⟨⟩; exact isMark) noQuotes.1,
        ih noQuotes.2]

/-- Blanks outside literals are left out. -/
theorem dropBlanks_of_blanks {blanks : List Char} (allBlank : ∀ c ∈ blanks, isBlank c = true)
    (text : List Char) : dropBlanks none (blanks ++ text) = dropBlanks none text := by
  induction blanks with
  | nil => rfl
  | cons c rest ih =>
      rw [List.cons_append, dropBlanks, if_pos (allBlank c (List.mem_cons_self ..)),
        ih fun d member => allBlank d (List.mem_cons_of_mem _ member)]

theorem all_takeWhile_isBlank (text : List Char) : ∀ c ∈ text.takeWhile isBlank, isBlank c = true :=
  fun _ member => List.mem_takeWhile_imp member

/-- What is read as an identifier without its blanks has no other characters. -/
theorem chars_of_isIdentifier_dropBlanks {front : List Char}
    (identifier : isIdentifier (dropBlanks open_ front) = true) :
    ∀ c ∈ front, isWordChar c = true ∨ isBlank c = true := by
  intro c member
  cases blank : isBlank c with
  | true => exact .inr rfl
  | false => exact .inl ((all_of_isIdentifier identifier).2 c (mem_dropBlanks blank member))

/-- There is no blank at the start of a word. -/
theorem takeWhile_isBlank_of_word {text : List Char} (isWord : ∀ c ∈ text, isWordChar c = true) :
    text.takeWhile isBlank = [] := by
  cases text with
  | nil => rfl
  | cons c rest =>
      refine List.takeWhile_cons_of_neg ?_
      rw [isBlank_of_isWordChar (isWord c (List.mem_cons_self ..))]
      nofun

/-- The blanks around what is read as an identifier count for nothing. -/
theorem dropBlanks_around {front : List Char} (marks : ∀ mark ∈ open_, isQuote mark = true)
    (identifier : isIdentifier (dropBlanks open_ front) = true) :
    (∀ text, dropBlanks open_ (front.takeWhile isBlank ++ text) = dropBlanks open_ text) ∧
      ∀ text, dropBlanks open_ ((front.reverse.takeWhile isBlank).reverse ++ text) =
        dropBlanks open_ text := by
  cases open_ with
  | none =>
      refine ⟨dropBlanks_of_blanks (all_takeWhile_isBlank _),
        dropBlanks_of_blanks fun c member => ?_⟩
      exact all_takeWhile_isBlank _ c (List.mem_reverse.mp member)
  | some quote =>
      -- inside a literal the name is written without blanks
      have noQuotes := any_isQuote_of_word (chars_of_isIdentifier_dropBlanks identifier)
      rw [dropBlanks_of_open (marks quote rfl) noQuotes] at identifier
      have isWord := (all_of_isIdentifier identifier).2
      rw [takeWhile_isBlank_of_word isWord,
        takeWhile_isBlank_of_word fun c member => isWord c (List.mem_reverse.mp member)]
      exact ⟨fun _ => rfl, fun _ => rfl⟩

/-- An identifier read without blanks is written as such a name, between blanks. -/
theorem exists_spelling {front : List Char}
    (identifier : isIdentifier (dropBlanks open_ front) = true) :
    ∃ core, front = front.takeWhile isBlank ++ (core ++ (front.reverse.takeWhile isBlank).reverse) ∧
      Spelling core := by
  have chars := chars_of_isIdentifier_dropBlanks identifier
  obtain ⟨notEmpty, wordChars⟩ := all_of_isIdentifier identifier
  obtain ⟨c, rest, begins⟩ := List.exists_cons_of_ne_nil notEmpty
  have isFirst : c ∈ dropBlanks open_ front := by rw [begins]; exact List.mem_cons_self ..
  obtain ⟨core, whole, ⟨first, others, opening, firstNotBlank⟩, before, last, ending,
      lastNotBlank⟩ :=
    exists_trimmed (mem_of_mem_dropBlanks isFirst) (isBlank_of_isWordChar (wordChars c isFirst))
  have inFront : ∀ d ∈ core, d ∈ front := by
    intro d member
    rw [whole]
    exact List.mem_append_right _ (List.mem_append_left _ member)
  have visible : ∀ d ∈ core, isBlank d = false → isWordChar d = true := by
    intro d member notBlank
    refine (chars d (inFront d member)).resolve_right ?_
    rw [notBlank]
    nofun
  refine ⟨core, whole, ?_, ?_, fun d member => chars d (inFront d member)⟩
  · exact ⟨first, others, opening, visible first (by simp [opening]) firstNotBlank⟩
  · exact ⟨before, last, ending, visible last (by simp [ending]) lastNotBlank⟩

/-- The head of a piece that is read without blanks. -/
theorem headOf_dropBlanks (open_ : Option Char) (piece : List Char) :
    headOf (dropBlanks open_ piece) =
      String.ofList (dropBlanks open_ (piece.takeWhile (· ≠ '.'))) := by
  rw [headOf, (split_dropBlanks (by decide : isBlank '.' = false) open_ piece).1]

/-- **A piece with another name is read as what was read with that name in the place of its head.**
-/
theorem dropBlanks_renamePiece (renames : Renames σ) (marks : ∀ mark ∈ open_, isQuote mark = true)
    (piece : List Char) :
    dropBlanks open_ (renamePiece σ open_ piece) = renameHead σ (dropBlanks open_ piece) := by
  have head := headOf_dropBlanks open_ piece
  rw [renamePiece]
  split
  · next same => rw [renameHead_of_eq (by rw [head, same])]
  · next moved =>
    obtain ⟨identifier, becomes⟩ := (renames _).resolve_left moved
    rw [String.toList_ofList] at identifier
    have noQuotes := any_isQuote_of_word (chars_of_isIdentifier_dropBlanks identifier)
    obtain ⟨leadBlank, trailBlank⟩ := dropBlanks_around marks identifier
    have newChars := (all_of_isIdentifier becomes.newName.identifier).2
    have behind := (split_dropBlanks (by decide : isBlank '.' = false) open_ piece).2
    rw [afterText_of_noQuotes marks noQuotes] at behind
    rw [leadBlank, dropBlanks_append,
      dropBlanks_eq_self fun c member => isBlank_of_isWordChar (newChars c member),
      afterText_of_noQuotes marks (any_isQuote_of_word fun c member => .inl (newChars c member)),
      trailBlank, renameHead, head, behind]

/-- **Only a name is written anew in a piece.** -/
theorem respelled_renamePiece (renames : Renames σ) (open_ : Option Char) (piece : List Char) :
    Respelled false piece (renamePiece σ open_ piece) := by
  rw [renamePiece]
  split
  · exact .refl false piece
  · next moved =>
    obtain ⟨identifier, becomes⟩ := (renames _).resolve_left moved
    rw [String.toList_ofList] at identifier
    obtain ⟨core, whole, spelling⟩ := exists_spelling identifier
    have parts := (piece.takeWhile_append_dropWhile (p := (· ≠ '.'))).symm
    have stops := fun c => @Text.eq_of_head?_dropWhile '.' c piece
    generalize piece.takeWhile (· ≠ '.') = front at whole parts becomes ⊢
    generalize piece.dropWhile (· ≠ '.') = back at stops parts ⊢
    have trailing : ∀ c ∈ (front.reverse.takeWhile isBlank).reverse, isBlank c = true :=
      fun c member => all_takeWhile_isBlank _ c (List.mem_reverse.mp member)
    have ends : ∀ c ∈ ((front.reverse.takeWhile isBlank).reverse ++ back).head?,
        isWordChar c = false := by
      intro c isFirst
      generalize (front.reverse.takeWhile isBlank).reverse = trail at trailing isFirst
      cases trail with
      | nil =>
          rw [stops c isFirst]
          decide
      | cons d more =>
          obtain rfl : d = c := Option.some.inj isFirst
          exact isWordChar_of_isBlank (trailing d (List.mem_cons_self ..))
    have inner : Respelled false (core ++ ((front.reverse.takeWhile isBlank).reverse ++ back)) _ :=
      .name spelling becomes.newName ends (.refl true _)
    have outer := inner.behind_separators fun c member =>
      isWordChar_of_isBlank (all_takeWhile_isBlank front c member)
    have same : piece =
        front.takeWhile isBlank ++
          (core ++ ((front.reverse.takeWhile isBlank).reverse ++ back)) := by
      rw [parts]
      conv_lhs => rw [whole]
      simp only [List.append_assoc]
    rw [same]
    exact outer

/-! ## Calls -/

/-- The pieces of a call without their blanks, with a quotation mark open before the first. -/
def dropEach : Option Char → List (List Char) → List (List Char)
  | _, [] => []
  | open_, piece :: rest => dropBlanks open_ piece :: dropEach (afterText open_ piece) rest

/-- A comma opens and closes nothing. -/
theorem afterChar_comma (marks : ∀ mark ∈ open_, isQuote mark = true) :
    afterChar open_ ',' = open_ :=
  afterChar_of_not_isQuote marks rfl

theorem dropBlanks_joinChars (marks : ∀ mark ∈ open_, isQuote mark = true)
    (pieces : List (List Char)) :
    dropBlanks open_ (joinChars ',' pieces) = joinChars ',' (dropEach open_ pieces) := by
  induction pieces generalizing open_ with
  | nil => cases open_ <;> rfl
  | cons piece rest ih =>
      cases rest with
      | nil => rfl
      | cons next more =>
          have marksAfter := isQuote_of_afterText marks piece
          rw [joinChars, dropBlanks_append, dropBlanks_cons (by decide : isBlank ',' = false),
            afterChar_comma marksAfter, ih marksAfter]
          rfl

/-- **The pieces of a call with other names are read as what was read, with other names.** -/
theorem dropEach_renamePieces (renames : Renames σ) (marks : ∀ mark ∈ open_, isQuote mark = true)
    (pieces : List (List Char)) :
    dropEach open_ (renamePieces σ open_ pieces) = (dropEach open_ pieces).map (renameHead σ) := by
  induction pieces generalizing open_ with
  | nil => rfl
  | cons piece rest ih =>
      have sameOpen := (respelled_renamePiece renames open_ piece).afterText_eq marks
      rw [renamePieces, dropEach, dropEach, List.map_cons,
        dropBlanks_renamePiece renames marks, sameOpen, ih (isQuote_of_afterText marks piece)]

theorem respelled_renamePieces (renames : Renames σ) (open_ : Option Char)
    (pieces : List (List Char)) :
    List.Forall₂ (Respelled false) pieces (renamePieces σ open_ pieces) := by
  induction pieces generalizing open_ with
  | nil => exact .nil
  | cons piece rest ih => exact .cons (respelled_renamePiece renames open_ piece) (ih _)

/-- Texts with commas between them, in each of which only names are written anew. -/
theorem respelled_joinChars {texts others : List (List Char)}
    (respelled : List.Forall₂ (Respelled false) texts others) :
    Respelled false (joinChars ',' texts) (joinChars ',' others) := by
  induction respelled with
  | nil => exact .nil
  | cons one more ih =>
      cases more with
      | nil => exact one
      | cons next rest => exact one.append (.cons rfl ih)

/-- What is behind the arguments of a call is empty or begins with a parenthesis. -/
theorem follows_dropWhile (text : List Char) :
    Follows (text.dropWhile (· ≠ ')')) (text.dropWhile (· ≠ ')')) := by
  cases rest : text.dropWhile (· ≠ ')') with
  | nil => exact .nil
  | cons c more =>
      obtain rfl : c = ')' := Text.eq_of_head?_dropWhile (by rw [rest]; rfl)
      exact .cons (by decide) (.refl _ _)

/-- Only names are written anew between commas. -/
theorem respelled_renamePieces_splitChars (renames : Renames σ) (open_ : Option Char)
    (text : List Char) :
    Respelled false text (joinChars ',' (renamePieces σ open_ (splitChars ',' text))) := by
  have inner := respelled_joinChars (respelled_renamePieces renames open_ (splitChars ',' text))
  rwa [Text.joinChars_splitChars] at inner

theorem respelled_renameArguments (renames : Renames σ) (open_ : Option Char) (text : List Char) :
    Respelled false text (renameArguments σ open_ text) := by
  have whole := (respelled_renamePieces_splitChars renames open_ (text.takeWhile (· ≠ ')'))).append
    (follows_dropWhile text)
  rwa [List.takeWhile_append_dropWhile] at whole

/-- The pieces of a call without blanks are what is between the commas of its text without blanks.
-/
theorem splitChars_dropBlanks (marks : ∀ mark ∈ open_, isQuote mark = true) (text : List Char) :
    splitChars ',' (dropBlanks open_ text) = dropEach open_ (splitChars ',' text) := by
  have notEmpty : ∀ open_, ∀ pieces : List (List Char), pieces ≠ [] →
      dropEach open_ pieces ≠ [] := by
    intro open_ pieces notEmpty
    obtain ⟨piece, rest, rfl⟩ := List.exists_cons_of_ne_nil notEmpty
    exact nofun
  have apart : ∀ pieces : List (List Char), (∀ piece ∈ pieces, ',' ∉ piece) →
      ∀ open_, ∀ piece ∈ dropEach open_ pieces, ',' ∉ piece := by
    intro pieces noCommas
    induction pieces with
    | nil => exact nofun
    | cons first rest ih =>
        intro open_ piece listed
        rcases List.mem_cons.mp listed with rfl | later
        · exact fun comma => noCommas first (List.mem_cons_self ..) (mem_of_mem_dropBlanks comma)
        · exact ih (fun other member => noCommas other (List.mem_cons_of_mem _ member))
            _ piece later
  have whole := dropBlanks_joinChars marks (splitChars ',' text)
  rw [Text.joinChars_splitChars] at whole
  rw [whole]
  exact splitChars_joinChars (notEmpty _ _ (Text.splitChars_ne_nil ',' text))
    (apart _ (fun piece listed => (mem_splitChars listed).1) _)

/-! ## Heads -/

/-- No separator comes in with another name. -/
theorem mem_renameHead (renames : Renames σ) {c : Char} (notWord : isWordChar c = false)
    {text : List Char} (member : c ∈ renameHead σ text) : c ∈ text := by
  rcases renames (headOf text) with same | ⟨_, becomes⟩
  · rwa [renameHead_of_eq same] at member
  · rcases List.mem_append.mp member with inName | behind
    · rw [(all_of_isIdentifier becomes.newName.identifier).2 c inName] at notWord
      cases notWord
    · exact (List.dropWhile_suffix _).subset behind

/-- No text comes to be empty, or not to be. -/
theorem isEmpty_renameHead (renames : Renames σ) (text : List Char) :
    (renameHead σ text).isEmpty = text.isEmpty := by
  have change := renamed_renameHead renames text
  generalize renameHead σ text = other at change
  cases change with
  | kept => rfl
  | head was becomes ends =>
      obtain ⟨c, rest, rfl⟩ := List.exists_cons_of_ne_nil (all_of_isIdentifier was).1
      obtain ⟨d, more, rfl⟩ := List.exists_cons_of_ne_nil (all_of_isIdentifier becomes.identifier).1
      rfl

theorem splitChars_renamed (renames : Renames σ) (text : List Char) :
    splitChars ',' (joinChars ',' ((splitChars ',' text).map (renameHead σ))) =
      (splitChars ',' text).map (renameHead σ) := by
  refine splitChars_joinChars ?_ ?_
  · rw [Ne, List.map_eq_nil_iff]
    exact Text.splitChars_ne_nil ',' text
  · intro piece member comma
    obtain ⟨old, listed, rfl⟩ := List.mem_map.mp member
    exact (mem_splitChars listed).1 (mem_renameHead renames (by decide) comma)

/-- The arguments between parentheses, with other names. -/
theorem argumentsOf_renamed (renames : Renames σ) (inner : List Char) :
    argumentsOf (joinChars ',' ((splitChars ',' inner).map (renameHead σ))) =
      (argumentsOf inner).map (renameText σ) := by
  have sameTest : ((fun argument : List Char => !argument.isEmpty) ∘ renameHead σ) =
      fun argument => !argument.isEmpty :=
    funext fun argument => congrArg (!·) (isEmpty_renameHead renames argument)
  have sameText : renameText σ ∘ String.ofList = String.ofList ∘ renameHead σ := by
    funext argument
    rw [Function.comp_apply, renameText, String.toList_ofList]
    rfl
  rw [argumentsOf, argumentsOf, splitChars_renamed renames, List.filter_map, sameTest, List.map_map,
    List.map_map, sameText]

/-- No other separator comes in between commas. -/
theorem mem_renamedPieces (renames : Renames σ) {c : Char} (notWord : isWordChar c = false)
    (differs : c ≠ ',') {text : List Char}
    (member : c ∈ joinChars ',' ((splitChars ',' text).map (renameHead σ))) : c ∈ text := by
  rcases mem_joinChars member with comma | ⟨piece, listed, inPiece⟩
  · exact absurd comma differs
  · obtain ⟨old, listedToo, rfl⟩ := List.mem_map.mp listed
    exact (mem_splitChars listedToo).2 c (mem_renameHead renames notWord inPiece)

/-- **The arguments of a call with other names are read as what was read, with other names.** -/
theorem dropBlanks_renameArguments (renames : Renames σ)
    (marks : ∀ mark ∈ open_, isQuote mark = true) {text inner : List Char} (noClosing : ')' ∉ inner)
    (read : dropBlanks open_ text = inner ++ [')']) :
    dropBlanks open_ (renameArguments σ open_ text) =
      joinChars ',' ((splitChars ',' inner).map (renameHead σ)) ++ [')'] := by
  obtain ⟨before, after⟩ := @Text.split_append ')' inner [')'] noClosing (by simp)
  obtain ⟨atInner, atClosing⟩ := split_dropBlanks (by decide : isBlank ')' = false) open_ text
  rw [read, before] at atInner
  rw [read, after] at atClosing
  have sameAfter := (respelled_renamePieces_splitChars renames open_
    (text.takeWhile (· ≠ ')'))).afterText_eq marks
  rw [renameArguments, dropBlanks_append, sameAfter, ← atClosing, dropBlanks_joinChars marks,
    dropEach_renamePieces renames marks, ← splitChars_dropBlanks marks, ← atInner]

end EntityQuery.Query

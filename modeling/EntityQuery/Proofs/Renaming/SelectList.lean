import EntityQuery.Proofs.Renaming.Arguments

/-!
# Select lists under other names

In a select list names are written anew in every slice: in a path at its start, in a call at the
start of every argument (`renameSelect`). The items of the new list are those of the old one with
other names (`splitSelectList_renameSelect`), and apart from the names nothing is changed in it
(`respelled_renameSelect`).
-/

set_option autoImplicit false

namespace EntityQuery.Query

open Text (isBlank joinChars splitChars mem_joinChars mem_splitChars)

/-- A slice of a select list: a call if it has an opening parenthesis, and otherwise a path. -/
def renameSlice (σ : String → String) (slice : List Char) : List Char :=
  match slice.dropWhile (· ≠ '(') with
  | [] => renamePiece σ none slice
  | opening :: behind =>
    slice.takeWhile (· ≠ '(') ++
      opening :: renameArguments σ (afterText none (slice.takeWhile (· ≠ '('))) behind

/-- A select list with other names. -/
def renameSelect (σ : String → String) (text : List Char) : List Char :=
  joinChars ',' ((slicesFrom 0 none text).map (renameSlice σ))

variable {σ : String → String} {open_ : Option Char}

/-! ## Slices -/

theorem renameSlice_of_path {slice : List Char} (isPath : '(' ∉ slice) :
    renameSlice σ slice = renamePiece σ none slice := by
  rw [renameSlice, Text.dropWhile_of_notMem isPath]

theorem renameSlice_of_call {slice behind : List Char}
    (opening : slice.dropWhile (· ≠ '(') = '(' :: behind) :
    renameSlice σ slice = slice.takeWhile (· ≠ '(') ++
      '(' :: renameArguments σ (afterText none (slice.takeWhile (· ≠ '('))) behind := by
  rw [renameSlice, opening]

/-- **Only names are written anew in a slice.** -/
theorem respelled_renameSlice (renames : Renames σ) (slice : List Char) :
    Respelled false slice (renameSlice σ slice) := by
  by_cases isCall : '(' ∈ slice
  · obtain ⟨behind, whole, opening⟩ := Text.exists_of_mem isCall
    have inside :=
      respelled_renameArguments renames (afterText none (slice.takeWhile (· ≠ '('))) behind
    have change : Respelled false _ _ :=
      inside.behind (slice.takeWhile (· ≠ '(')) (by decide : isWordChar '(' = false)
    rw [renameSlice_of_call opening]
    rwa [← whole] at change
  · rw [renameSlice_of_path isCall]
    exact respelled_renamePiece renames none slice

/-! ## Items -/

/-- An item with other names: those of its arguments, or of its path. -/
def SelectItem.rename (σ : String → String) : SelectItem → SelectItem
  | .call name arguments => .call name (arguments.map (renameText σ))
  | .path text => .path (renameText σ text)

/-- **A slice with other names is read as the item with other names.** -/
theorem SelectItem.reads_renameSlice (renames : Renames σ) {slice : List Char} {item : SelectItem}
    (read : Reads (dropBlanks none slice) item) :
    Reads (dropBlanks none (renameSlice σ slice)) (item.rename σ) := by
  generalize whole : dropBlanks none slice = text at read
  cases read with
  | path isPath =>
      have noOpening : '(' ∉ slice := by
        intro member
        rw [← whole] at isPath
        exact isPath (mem_dropBlanks (by decide) member)
      rw [renameSlice_of_path noOpening, dropBlanks_renamePiece renames isQuote_of_none, whole,
        SelectItem.rename, renameText, String.toList_ofList]
      exact .path fun member => isPath (mem_renameHead renames (by decide) member)
  | @call name inner isName oneLevel =>
      have isCall : '(' ∈ slice := mem_of_mem_dropBlanks (by rw [whole]; simp)
      obtain ⟨behind, _, opening⟩ := Text.exists_of_mem isCall
      rw [renameSlice_of_call opening]
      obtain ⟨atName, atOpening⟩ := split_dropBlanks (by decide : isBlank '(' = false) none slice
      generalize slice.takeWhile (· ≠ '(') = front at atName atOpening ⊢
      have marks := isQuote_of_afterText isQuote_of_none front
      generalize sameOpen : afterText none front = open_ at marks atOpening ⊢
      obtain ⟨before, after⟩ :=
        @Text.split_append '(' name ('(' :: (inner ++ [')'])) isName (by simp)
      have kept : afterChar open_ '(' = open_ := afterChar_of_not_isQuote marks rfl
      rw [whole, before] at atName
      rw [whole, after, opening, dropBlanks_cons (by decide), kept] at atOpening
      have behindOpening := (List.cons.inj atOpening).2.symm
      have noClosing : ')' ∉ inner := fun member => (oneLevel _ member).2 rfl
      rw [dropBlanks_append, ← atName, sameOpen, dropBlanks_cons (by decide), kept,
        dropBlanks_renameArguments renames marks noClosing behindOpening, SelectItem.rename,
        ← argumentsOf_renamed renames]
      refine .call isName fun c member => ⟨?_, ?_⟩
      · rintro rfl
        exact (oneLevel _ (mem_renamedPieces renames (by decide) (by decide) member)).1 rfl
      · rintro rfl
        exact noClosing (mem_renamedPieces renames (by decide) (by decide) member)

/-! ## Select lists -/

/-- **Only names are written anew in a select list.** -/
theorem respelled_renameSelect (renames : Renames σ) (text : List Char) :
    Respelled false text (renameSelect σ text) := by
  have slices : List.Forall₂ (Respelled false) (slicesFrom 0 none text)
      ((slicesFrom 0 none text).map (renameSlice σ)) :=
    List.forall₂_map_right_iff.mpr
      (List.forall₂_same.mpr fun slice _ => respelled_renameSlice renames slice)
  have whole := respelled_joinChars slices
  rwa [joinChars_slicesFrom] at whole

/-- A name has nothing at which a list is cut, or which changes what is open. -/
theorem uncut_name_iff {depth last : Nat} {lastOpen : Option Char} {name text : List Char}
    (marks : ∀ mark ∈ open_, isQuote mark = true) (spelling : Spelling name) :
    Uncut depth open_ (name ++ text) last lastOpen ↔ Uncut depth open_ text last lastOpen := by
  have chars := spelling.chars
  clear spelling
  induction name with
  | nil => rfl
  | cons c rest ih =>
      have onwards := ih fun d member => chars d (List.mem_cons_of_mem _ member)
      have differs : ∀ d, isWordChar d = false → isBlank d = false → c ≠ d := by
        intro d notWord notBlank
        rintro rfl
        rcases chars c (List.mem_cons_self ..) with isWord | blank
        · rw [notWord] at isWord
          cases isWord
        · rw [notBlank] at blank
          cases blank
      have noQuote : isQuote c = false := by
        rcases chars c (List.mem_cons_self ..) with isWord | blank
        · exact isQuote_of_isWordChar isWord
        · cases quote : isQuote c with
          | false => rfl
          | true =>
              rw [isBlank_of_isQuote quote] at blank
              cases blank
      have sameOpen := afterChar_of_not_isQuote marks noQuote
      have sameDepth := depthWith_eq_self (differs '(' (by decide) (by decide))
        (differs ')' (by decide) (by decide)) open_ depth
      refine Iff.trans ?_ onwards
      constructor
      · rintro (_ | ⟨notCut, others⟩)
        rwa [sameOpen, sameDepth] at others
      · intro others
        refine .cons (fun cut => differs ',' (by decide) (by decide) cut.2.1) ?_
        rwa [sameOpen, sameDepth]

/-- A text in which names are written anew is cut where the old one is. -/
theorem Respelled.uncut {inWord : Bool} {text other : List Char}
    (respelled : Respelled inWord text other) {depth last : Nat} {lastOpen : Option Char}
    (marks : ∀ mark ∈ open_, isQuote mark = true) (uncut : Uncut depth open_ text last lastOpen) :
    Uncut depth open_ other last lastOpen := by
  induction respelled generalizing depth open_ with
  | nil => exact uncut
  | keep _ ih =>
      cases uncut with
      | cons notCut others => exact .cons notCut (ih (isQuote_of_afterChar marks _) others)
  | name was becomes _ _ ih =>
      rw [uncut_name_iff marks was] at uncut
      rw [uncut_name_iff marks becomes.spelling]
      exact ih marks uncut

theorem Sliced.respelled {depth : Nat} {slices others : List (List Char)}
    (sliced : Sliced depth open_ slices) (marks : ∀ mark ∈ open_, isQuote mark = true)
    (respelled : List.Forall₂ (Respelled false) slices others) : Sliced depth open_ others := by
  induction sliced generalizing others with
  | last uncut =>
      cases respelled with
      | cons one none =>
          cases none
          exact .last (one.uncut marks uncut)
  | cons uncut _ ih =>
      cases respelled with
      | cons one more =>
          have onwards := ih isQuote_of_none more
          cases more with
          | cons next rest => exact .cons (one.uncut marks uncut) onwards

/-- The slices of a list with other names. -/
theorem slicesFrom_renameSelect (renames : Renames σ) (text : List Char) :
    slicesFrom 0 none (renameSelect σ text) = (slicesFrom 0 none text).map (renameSlice σ) := by
  refine slicesFrom_joinChars ((sliced_slicesFrom 0 none text).respelled isQuote_of_none ?_)
  exact List.forall₂_map_right_iff.mpr
    (List.forall₂_same.mpr fun slice _ => respelled_renameSlice renames slice)

/-- Where names are written anew something is to be seen before and behind. -/
theorem Respelled.dropBlanks_eq_nil {inWord : Bool} {text other : List Char}
    (respelled : Respelled inWord text other) (blank : dropBlanks open_ other = []) :
    dropBlanks open_ text = [] := by
  induction respelled generalizing open_ with
  | nil => exact blank
  | keep _ ih =>
      cases open_ with
      | some quote => cases blank
      | none =>
          rw [dropBlanks] at blank ⊢
          split
          · next isBlank =>
            rw [if_pos isBlank] at blank
            exact ih blank
          · next notBlank =>
            rw [if_neg notBlank] at blank
            cases blank
  | name _ becomes _ _ _ =>
      obtain ⟨c, rest, rfl, isWord⟩ := becomes.spelling.first
      rw [List.cons_append, dropBlanks_cons (isBlank_of_isWordChar isWord)] at blank
      cases blank

/-- **A select list with other names has the items of the old one, with other names.** -/
theorem splitSelectList_renameSelect (renames : Renames σ) {text : String} {items : List String}
    (split : splitSelectList text = .ok items) :
    ∃ others, splitSelectList (String.ofList (renameSelect σ text.toList)) = .ok others ∧
      List.Forall₂ (fun item other => ∀ read, SelectItem.ofText? item = some read →
        SelectItem.ofText? other = some (read.rename σ)) items others := by
  rw [splitSelectList, itemsFrom_eq, blanksDropped_none] at split
  split at split
  · cases split
  · next noneEmpty =>
    cases split
    have nonempty : ¬ (((slicesFrom 0 none text.toList).map (renameSlice σ)).map
        (dropBlanks none)).any
        List.isEmpty = true := by
      intro anyEmpty
      apply noneEmpty
      rw [List.any_map, List.any_map, List.any_eq_true] at anyEmpty
      obtain ⟨slice, listed, empty⟩ := anyEmpty
      rw [List.any_map, List.any_eq_true]
      refine ⟨slice, listed, ?_⟩
      exact List.isEmpty_iff.mpr
        ((respelled_renameSlice renames slice).dropBlanks_eq_nil (List.isEmpty_iff.mp empty))
    refine ⟨(((slicesFrom 0 none text.toList).map (renameSlice σ)).map (dropBlanks none)).map
      String.ofList, ?_, ?_⟩
    · rw [splitSelectList, String.toList_ofList, itemsFrom_eq, blanksDropped_none,
        slicesFrom_renameSelect renames]
      exact if_neg nonempty
    · rw [List.map_map, List.map_map, List.map_map, List.forall₂_map_left_iff,
        List.forall₂_map_right_iff]
      refine List.forall₂_same.mpr fun slice _ read found => ?_
      exact SelectItem.ofText?_of_reads
        (SelectItem.reads_renameSlice renames (SelectItem.reads_of_ofText? found))

end EntityQuery.Query

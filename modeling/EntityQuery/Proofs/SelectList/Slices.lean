import EntityQuery.Query.SelectList
import EntityQuery.Proofs.SelectList.Literals
import EntityQuery.Proofs.Text.Pieces
import Mathlib.Data.List.Basic

/-!
# Slices of a select list

A select list is cut into slices at the commas that separate its items (`slicesFrom`), and the
slices put together again are the whole list (`joinChars_slicesFrom`). An item is its slice without
the blanks outside literals (`dropBlanks`, `itemsFrom_eq`).

No slice has a comma at which the list is cut (`Uncut`), and conversely texts without such commas
are the slices of what they make up together (`slicesFrom_joinChars`).

An item is a path or a call of one level (`SelectItem.Reads`, `SelectItem.reads_of_ofText?`).
-/

set_option autoImplicit false

namespace EntityQuery.Query

open Text (isBlank joinChars splitChars)

/-! ## Blanks outside literals -/

/-- A text without its blanks outside literals, with a quotation mark open before it. -/
def dropBlanks : Option Char → List Char → List Char
  | _, [] => []
  | some quote, c :: rest => c :: dropBlanks (afterChar (some quote) c) rest
  | none, c :: rest =>
      if isBlank c then dropBlanks none rest else c :: dropBlanks (afterChar none c) rest

/-- A character is kept if it is no blank. -/
theorem dropBlanks_cons {c : Char} (notBlank : isBlank c = false) (open_ : Option Char)
    (text : List Char) :
    dropBlanks open_ (c :: text) = c :: dropBlanks (afterChar open_ c) text := by
  cases open_ with
  | none => rw [dropBlanks, if_neg (Bool.eq_false_iff.mp notBlank)]
  | some quote => rfl

theorem dropBlanks_append (open_ : Option Char) (text more : List Char) :
    dropBlanks open_ (text ++ more) = dropBlanks open_ text ++
      dropBlanks (afterText open_ text) more := by
  induction text generalizing open_ with
  | nil => rfl
  | cons c rest ih =>
      cases open_ with
      | some quote => exact congrArg (c :: ·) (ih _)
      | none =>
          rw [List.cons_append, dropBlanks, dropBlanks]
          by_cases blank : isBlank c = true
          · rw [if_pos blank, if_pos blank, ih, afterText, afterText, List.foldl_cons,
              afterChar_of_isBlank blank]
          · rw [if_neg blank, if_neg blank, ih]
            rfl

/-- Every character that is no blank is kept. -/
theorem mem_dropBlanks {c : Char} (notBlank : isBlank c = false) {open_ : Option Char}
    {text : List Char} (member : c ∈ text) : c ∈ dropBlanks open_ text := by
  induction text generalizing open_ with
  | nil => cases member
  | cons d rest ih =>
      rcases List.mem_cons.mp member with rfl | later
      · rw [dropBlanks_cons notBlank]
        exact List.mem_cons_self ..
      · cases open_ with
        | some quote => exact List.mem_cons_of_mem _ (ih later)
        | none =>
            rw [dropBlanks]
            split
            · exact ih later
            · exact List.mem_cons_of_mem _ (ih later)

/-- Nothing is put in. -/
theorem mem_of_mem_dropBlanks {c : Char} {open_ : Option Char} {text : List Char}
    (member : c ∈ dropBlanks open_ text) : c ∈ text := by
  induction text generalizing open_ with
  | nil => exact member
  | cons d rest ih =>
      cases open_ with
      | some quote =>
          rcases List.mem_cons.mp member with rfl | later
          · exact List.mem_cons_self ..
          · exact List.mem_cons_of_mem _ (ih later)
      | none =>
          rw [dropBlanks] at member
          split at member
          · exact List.mem_cons_of_mem _ (ih member)
          · rcases List.mem_cons.mp member with rfl | later
            · exact List.mem_cons_self ..
            · exact List.mem_cons_of_mem _ (ih later)

/-- **What stands before a character that is no blank, and the rest, each without its blanks.** -/
theorem split_dropBlanks {d : Char} (notBlank : isBlank d = false) (open_ : Option Char)
    (text : List Char) :
    (dropBlanks open_ text).takeWhile (· ≠ d) = dropBlanks open_ (text.takeWhile (· ≠ d)) ∧
      (dropBlanks open_ text).dropWhile (· ≠ d) =
        dropBlanks (afterText open_ (text.takeWhile (· ≠ d))) (text.dropWhile (· ≠ d)) := by
  induction text generalizing open_ with
  | nil => exact ⟨rfl, rfl⟩
  | cons c rest ih =>
      by_cases same : c = d
      · subst same
        simp [dropBlanks_cons notBlank, afterText, dropBlanks]
      · have onwards := ih (afterChar open_ c)
        have step : afterText open_ (c :: rest.takeWhile (· ≠ d)) =
            afterText (afterChar open_ c) (rest.takeWhile (· ≠ d)) := rfl
        have takes : ∀ more : List Char,
            (c :: more).takeWhile (· ≠ d) = c :: more.takeWhile (· ≠ d) :=
          fun more => List.takeWhile_cons_of_pos (decide_eq_true same)
        have drops : ∀ more : List Char, (c :: more).dropWhile (· ≠ d) = more.dropWhile (· ≠ d) :=
          fun more => List.dropWhile_cons_of_pos (decide_eq_true same)
        rw [takes, drops, step]
        have visible : (c :: dropBlanks (afterChar open_ c) rest).takeWhile (· ≠ d) =
              c :: dropBlanks (afterChar open_ c) (rest.takeWhile (· ≠ d)) ∧
            (c :: dropBlanks (afterChar open_ c) rest).dropWhile (· ≠ d) =
              dropBlanks (afterText (afterChar open_ c) (rest.takeWhile (· ≠ d)))
                (rest.dropWhile (· ≠ d)) := by
          rw [takes, drops, onwards.1, onwards.2]
          exact ⟨rfl, rfl⟩
        cases open_ with
        | some quote => exact visible
        | none =>
            rw [dropBlanks, dropBlanks]
            by_cases blank : isBlank c = true
            · rw [if_pos blank, if_pos blank]
              rwa [afterChar_of_isBlank blank] at onwards ⊢
            · rw [if_neg blank, if_neg blank]
              exact visible

/-! ## Cuts -/

/-- How many parentheses are open after one more character. In a literal none is opened or closed.
-/
def depthWith (open_ : Option Char) (depth : Nat) (c : Char) : Nat :=
  if open_.isNone then depthAfter depth c else depth

/-- Only a parenthesis opens or closes one. -/
theorem depthWith_eq_self {c : Char} (noOpening : c ≠ '(') (noClosing : c ≠ ')')
    (open_ : Option Char) (depth : Nat) : depthWith open_ depth c = depth := by
  rw [depthWith, depthAfter, if_neg noOpening, if_neg noClosing, ite_self]

theorem depthWith_of_isBlank {c : Char} (blank : isBlank c = true) (open_ : Option Char)
    (depth : Nat) :
    depthWith open_ depth c = depth := by
  refine depthWith_eq_self ?_ ?_ open_ depth <;> rintro rfl <;> exact absurd blank (by decide)

/-- The slices of a text, with parentheses and perhaps a quotation mark open before it. -/
def slicesFrom : Nat → Option Char → List Char → List (List Char)
  | _, _, [] => [[]]
  | depth, open_, c :: rest =>
    if open_ = none ∧ c = ',' ∧ depth = 0 then [] :: slicesFrom 0 none rest
    else inFront c (slicesFrom (depthWith open_ depth c) (afterChar open_ c) rest)

/-- There is no comma in a text at which a select list is cut, and at its end as many parentheses
and the quotation mark are open. -/
inductive Uncut : Nat → Option Char → List Char → Nat → Option Char → Prop where
  | nil {depth : Nat} {open_ : Option Char} : Uncut depth open_ [] depth open_
  | cons {depth last : Nat} {open_ lastOpen : Option Char} {c : Char} {rest : List Char}
      (notCut : ¬(open_ = none ∧ c = ',' ∧ depth = 0))
      (others : Uncut (depthWith open_ depth c) (afterChar open_ c) rest last lastOpen) :
      Uncut depth open_ (c :: rest) last lastOpen

/-- Texts that make up a list when commas are put between them at which it is cut, and nowhere else.
-/
inductive Sliced : Nat → Option Char → List (List Char) → Prop where
  | last {depth last : Nat} {open_ lastOpen : Option Char} {slice : List Char}
      (uncut : Uncut depth open_ slice last lastOpen) : Sliced depth open_ [slice]
  | cons {depth : Nat} {open_ : Option Char} {slice next : List Char} {slices : List (List Char)}
      (uncut : Uncut depth open_ slice 0 none) (others : Sliced 0 none (next :: slices)) :
      Sliced depth open_ (slice :: next :: slices)

variable {depth : Nat} {open_ : Option Char}

theorem inFront_ne_nil (c : Char) (slices : List (List Char)) : inFront c slices ≠ [] := by
  cases slices <;> exact nofun

theorem slicesFrom_ne_nil (depth : Nat) (open_ : Option Char) (text : List Char) :
    slicesFrom depth open_ text ≠ [] := by
  cases text with
  | nil => exact nofun
  | cons c rest =>
      rw [slicesFrom]
      split
      · exact nofun
      · exact inFront_ne_nil c _

theorem joinChars_inFront (c : Char) {slices : List (List Char)} (notEmpty : slices ≠ []) :
    joinChars ',' (inFront c slices) = c :: joinChars ',' slices := by
  obtain ⟨slice, others, rfl⟩ := List.exists_cons_of_ne_nil notEmpty
  cases others <;> rfl

/-- The slices put together again. -/
theorem joinChars_slicesFrom (depth : Nat) (open_ : Option Char) (text : List Char) :
    joinChars ',' (slicesFrom depth open_ text) = text := by
  induction text generalizing depth open_ with
  | nil => rfl
  | cons c rest ih =>
      rw [slicesFrom]
      split
      · next cut =>
        rw [Text.joinChars_cons _ _ (slicesFrom_ne_nil _ _ _), ih, cut.2.1]
        rfl
      · rw [joinChars_inFront c (slicesFrom_ne_nil _ _ _), ih]

theorem Sliced.inFront {c : Char} {slices : List (List Char)}
    (notCut : ¬(open_ = none ∧ c = ',' ∧ depth = 0))
    (sliced : Sliced (depthWith open_ depth c) (afterChar open_ c) slices) :
    Sliced depth open_ (inFront c slices) := by
  cases sliced with
  | last uncut => exact .last (.cons notCut uncut)
  | cons uncut others => exact .cons (.cons notCut uncut) others

/-- **A list is cut at the commas between its slices, and nowhere else.** -/
theorem sliced_slicesFrom (depth : Nat) (open_ : Option Char) (text : List Char) :
    Sliced depth open_ (slicesFrom depth open_ text) := by
  induction text generalizing depth open_ with
  | nil => exact .last .nil
  | cons c rest ih =>
      rw [slicesFrom]
      split
      · next cut =>
        obtain ⟨rfl, rfl, rfl⟩ := cut
        have others := ih 0 none
        obtain ⟨slice, more, same⟩ := List.exists_cons_of_ne_nil (slicesFrom_ne_nil 0 none rest)
        rw [same] at others ⊢
        exact .cons .nil others
      · next notCut => exact .inFront notCut (ih _ _)

/-- A text without cuts is the rest of a slice. -/
theorem slicesFrom_uncut {last : Nat} {lastOpen : Option Char} {slice : List Char}
    (uncut : Uncut depth open_ slice last lastOpen) (more : List Char) :
    slicesFrom depth open_ (slice ++ more) =
      (slicesFrom last lastOpen more).modifyHead (slice ++ ·) := by
  induction uncut with
  | nil =>
      obtain ⟨first, others, same⟩ := List.exists_cons_of_ne_nil (slicesFrom_ne_nil _ _ more)
      rw [List.nil_append, same]
      rfl
  | @cons depth last open_ lastOpen c rest notCut _ ih =>
      obtain ⟨first, others, same⟩ :=
        List.exists_cons_of_ne_nil (slicesFrom_ne_nil last lastOpen more)
      rw [List.cons_append, slicesFrom, if_neg notCut, ih, same]
      rfl

/-- **Texts without cuts are the slices of what they make up.** -/
theorem slicesFrom_joinChars {slices : List (List Char)} (sliced : Sliced depth open_ slices) :
    slicesFrom depth open_ (joinChars ',' slices) = slices := by
  induction sliced with
  | @last depth last open_ lastOpen slice uncut =>
      have whole := slicesFrom_uncut uncut []
      rw [List.append_nil] at whole
      rw [joinChars, whole, slicesFrom, List.modifyHead_cons, List.append_nil]
  | cons uncut _ ih =>
      rw [joinChars, slicesFrom_uncut uncut, slicesFrom, if_pos ⟨rfl, rfl, rfl⟩, ih,
        List.modifyHead_cons, List.append_nil]

/-! ## Items -/

/-- Slices without their blanks. -/
def blanksDropped (open_ : Option Char) : List (List Char) → List (List Char)
  | [] => []
  | first :: rest => dropBlanks open_ first :: rest.map (dropBlanks none)

theorem blanksDropped_none (slices : List (List Char)) :
    blanksDropped none slices = slices.map (dropBlanks none) := by
  cases slices <;> rfl

/-- A character that is kept stands in front of the items. -/
theorem blanksDropped_inFront {c : Char} (kept : dropBlanks open_ [c] = [c])
    (slices : List (List Char)) :
    blanksDropped open_ (inFront c slices) =
      inFront c (blanksDropped (afterChar open_ c) slices) := by
  cases slices with
  | nil => exact congrArg (fun text => [text]) kept
  | cons slice rest =>
      have whole := dropBlanks_append open_ [c] slice
      rw [kept] at whole
      exact congrArg (fun text => text :: rest.map (dropBlanks none)) whole

/-- **The items are the slices without their blanks.** -/
theorem itemsFrom_eq (depth : Nat) (open_ : Option Char) (text : List Char) :
    itemsFrom depth open_ text = blanksDropped open_ (slicesFrom depth open_ text) := by
  induction text generalizing depth open_ with
  | nil => cases open_ <;> rfl
  | cons c rest ih =>
      cases open_ with
      | some quote =>
          rw [itemsFrom, slicesFrom, if_neg (fun cut => nomatch cut.1), ih,
            blanksDropped_inFront rfl]
          rfl
      | none =>
          rw [itemsFrom, slicesFrom]
          by_cases cut : c = ',' ∧ depth = 0
          · rw [if_pos cut, if_pos ⟨rfl, cut⟩, ih, cut.2, blanksDropped_none]
            rfl
          · have notCut : ¬((none : Option Char) = none ∧ c = ',' ∧ depth = 0) :=
              fun whole => cut whole.2
            rw [if_neg cut, if_neg notCut]
            by_cases blank : isBlank c = true
            · obtain ⟨slice, others, same⟩ :=
                List.exists_cons_of_ne_nil (slicesFrom_ne_nil depth none rest)
              rw [if_pos blank, ih, depthWith_of_isBlank blank, afterChar_of_isBlank blank,
                same, inFront, blanksDropped, blanksDropped, dropBlanks, if_pos blank]
            · have kept : dropBlanks none [c] = [c] := by rw [dropBlanks, if_neg blank]; rfl
              rw [if_neg blank, ih, blanksDropped_inFront kept]
              rfl

/-! ## Paths and calls -/

/-- An item is a path without parentheses, or a call with one pair of them at its end. -/
inductive SelectItem.Reads : List Char → SelectItem → Prop where
  | path {text : List Char} (isPath : '(' ∉ text) : Reads text (.path (String.ofList text))
  | call {name inner : List Char} (isName : '(' ∉ name)
      (oneLevel : ∀ c ∈ inner, c ≠ '(' ∧ c ≠ ')') :
      Reads (name ++ '(' :: (inner ++ [')'])) (.call (String.ofList name) (argumentsOf inner))

theorem SelectItem.reads_of_ofText? {text : List Char} {item : SelectItem}
    (found : SelectItem.ofText? (String.ofList text) = some item) : Reads text item := by
  by_cases isCall : '(' ∈ text
  · obtain ⟨behind, whole, opening⟩ := Text.exists_of_mem isCall
    simp only [SelectItem.ofText?, String.toList_ofList, opening,
      Option.ite_none_right_eq_some] at found
    obtain ⟨⟨closes, oneLevel⟩, same⟩ := found
    cases same
    have last : ')' ∈ behind.getLast? := by
      rw [whole, List.getLast?_append_of_ne_nil _ (List.cons_ne_nil _ _)] at closes
      cases behind with
      | nil => exact absurd (Option.some.inj closes) (by decide)
      | cons next rest => exact closes
    have inner := List.dropLast_append_getLast? ')' last
    have read :=
      @Reads.call (text.takeWhile (· ≠ '(')) behind.dropLast (Text.notMem_takeWhile '(' text)
      (by simpa [List.all_eq_true] using oneLevel)
    rwa [inner, ← whole] at read
  · have none : text.dropWhile (· ≠ '(') = [] := Text.dropWhile_of_notMem isCall
    simp only [SelectItem.ofText?, String.toList_ofList, none, Option.some.injEq] at found
    subst found
    exact .path isCall

theorem SelectItem.ofText?_of_reads {text : List Char} {item : SelectItem}
    (read : Reads text item) :
    SelectItem.ofText? (String.ofList text) = some item := by
  cases read with
  | path isPath =>
      have none : text.dropWhile (· ≠ '(') = [] := Text.dropWhile_of_notMem isPath
      simp only [SelectItem.ofText?, String.toList_ofList, none]
  | @call name inner isName oneLevel =>
      obtain ⟨before, behind⟩ :=
        @Text.split_append '(' name ('(' :: (inner ++ [')'])) isName (by simp)
      have closes : (name ++ '(' :: (inner ++ [')'])).getLast? = some ')' := by
        rw [List.getLast?_append_of_ne_nil _ (List.cons_ne_nil _ _), ← List.cons_append,
          List.getLast?_concat]
      have level : (inner.all fun c => decide (c ≠ '(' ∧ c ≠ ')')) = true := by
        simpa [List.all_eq_true] using oneLevel
      simp only [SelectItem.ofText?, String.toList_ofList, before, behind, closes,
        List.dropLast_concat, level, and_self, if_true]

end EntityQuery.Query

import EntityQuery.Proofs.Clauses.Gluing
import EntityQuery.Proofs.SelectList.Slices
import Mathlib.Logic.Relation

/-!
# Select lists with copies of items

In a list with further copies, each copy is of an element that stands before it (`WithCopies`). An
item is written once more without its blanks, with or without a space in front of it
(`WrittenAgain`). Where items are written once more behind their slices in a select list, the longer
list has the items of the old one with the same copies (`splitSelectList_withCopies`): an item that
is accepted ends outside literals and parentheses (`Uncut.of_reads`), so the list is cut at the
commas around the copies.

Item by item the longer list arises by insertions (`Insertions.of_withCopies`). An insertion brings
no keyword of a table clause into a text, and a text in normal form stays so (`Insertion.free`,
`Insertion.normal`). Hence a query whose select list gets the copies keeps its layout, and the other
clauses with it (`Layout.Sound.splitClauses_withSelect`).
-/

set_option autoImplicit false

namespace EntityQuery

/-! ## Copies -/

/-- A list with further elements, each of them a copy of one that stands before it. The elements in
`seen` stand before the list. -/
inductive WithCopies {α : Type} (IsCopy : α → α → Prop) : List α → List α → List α → Prop where
  | nil (seen : List α) : WithCopies IsCopy seen [] []
  | keep {seen list longer : List α} (first : α)
      (others : WithCopies IsCopy (first :: seen) list longer) :
      WithCopies IsCopy seen (first :: list) (first :: longer)
  | copy {seen list longer : List α} {source copy : α} (old : source ∈ seen)
      (isCopy : IsCopy source copy)
      (others : WithCopies IsCopy seen list longer) : WithCopies IsCopy seen list (copy :: longer)

namespace WithCopies

variable {α β : Type} {IsCopy : α → α → Prop} {seen list longer : List α}

/-- A list of values of the elements has the values of the copies. -/
theorem map {IsCopyToo : β → β → Prop} (f : α → β)
    (keeps : ∀ source copy, IsCopy source copy → IsCopyToo (f source) (f copy))
    (copies : WithCopies IsCopy seen list longer) :
    WithCopies IsCopyToo (seen.map f) (list.map f) (longer.map f) := by
  induction copies with
  | nil => exact .nil _
  | keep first _ ih => exact .keep (f first) ih
  | copy old isCopy _ ih => exact .copy (List.mem_map_of_mem old) (keeps _ _ isCopy) ih

/-- Nothing is put in but copies. -/
theorem mem (copies : WithCopies IsCopy seen list longer) :
    ∀ a ∈ longer, a ∈ list ∨ ∃ source ∈ seen ++ list, IsCopy source a := by
  induction copies with
  | nil => nofun
  | keep first _ ih =>
      intro a member
      rcases List.mem_cons.mp member with rfl | later
      · exact .inl List.mem_cons_self
      · rcases ih a later with kept | ⟨source, old, isCopy⟩
        · exact .inl (List.mem_cons_of_mem _ kept)
        · exact .inr ⟨source, List.perm_middle.symm.subset old, isCopy⟩
  | @copy seen list longer source copy old isCopy _ ih =>
      intro a member
      rcases List.mem_cons.mp member with rfl | later
      · exact .inr ⟨source, List.mem_append_left _ old, isCopy⟩
      · exact ih a later

end WithCopies

namespace Query

open Text (isBlank joinChars)

variable {text longer more slice : List Char} {open_ : Option Char}

/-! ## Items that are written once more -/

/-- An item has no blanks to be dropped. -/
theorem dropBlanks_dropBlanks (open_ : Option Char) (text : List Char) :
    dropBlanks open_ (dropBlanks open_ text) = dropBlanks open_ text := by
  induction text generalizing open_ with
  | nil => cases open_ <;> rfl
  | cons c rest ih =>
      cases open_ with
      | some quote => exact congrArg (c :: ·) (ih _)
      | none =>
          rw [dropBlanks]
          split
          · exact ih none
          · next notBlank => rw [dropBlanks, if_neg notBlank, ih]

/-- The blanks that are dropped open and close nothing. -/
theorem afterText_dropBlanks (open_ : Option Char) (text : List Char) :
    afterText open_ (dropBlanks open_ text) = afterText open_ text := by
  induction text generalizing open_ with
  | nil => cases open_ <;> rfl
  | cons c rest ih =>
      cases open_ with
      | some quote => exact ih _
      | none =>
          rw [dropBlanks]
          split
          · next blank =>
            rw [ih, afterText, afterText, List.foldl_cons, afterChar_of_isBlank blank]
          · exact ih _

/-- An item may stand in a text in normal form. -/
theorem normal_dropBlanks (normal : Normal .closed (afterText open_ text) more) :
    Normal .closed open_ (dropBlanks open_ text ++ more) := by
  induction text generalizing open_ with
  | nil => cases open_ <;> exact normal
  | cons c rest ih =>
      cases open_ with
      | some quote => exact .inside (ih normal)
      | none =>
          rw [dropBlanks]
          split
          · next blank =>
            rw [afterText, List.foldl_cons, afterChar_of_isBlank blank] at normal
            exact ih normal
          · next notBlank => exact .char (Bool.eq_false_iff.mpr notBlank) (ih normal)

/-- An item does not begin with a blank. -/
theorem dropBlanks_begins (text : List Char) :
    dropBlanks none text = [] ∨
      ∃ c rest, dropBlanks none text = c :: dropBlanks (afterChar none c) rest ∧
        isBlank c = false := by
  induction text with
  | nil => exact .inl rfl
  | cons c rest ih =>
      rw [dropBlanks]
      split
      · exact ih
      · next notBlank => exact .inr ⟨c, rest, rfl, Bool.eq_false_iff.mpr notBlank⟩

/-- The item of a slice is written once more, without its blanks. There may be a space in front of
it, but not where it would be read as the keyword of the table clause. -/
inductive WrittenAgain (slice : List Char) : List Char → Prop where
  | plain : WrittenAgain slice (dropBlanks none slice)
  | spaced (noKeyword : (dropBlanks none slice).map Char.toLower ≠ Clause.table.keyword.toList) :
      WrittenAgain slice (' ' :: dropBlanks none slice)

namespace WrittenAgain

variable {copy : List Char}

/-- It is the same item. -/
theorem dropBlanks_eq (again : WrittenAgain slice copy) :
    dropBlanks none copy = dropBlanks none slice := by
  cases again <;> exact dropBlanks_dropBlanks none slice

theorem afterText_eq (again : WrittenAgain slice copy) :
    afterText none copy = afterText none slice := by
  cases again <;> exact afterText_dropBlanks none slice

/-- It may stand in a text in normal form. -/
theorem normal (again : WrittenAgain slice copy) (notEmpty : dropBlanks none slice ≠ [])
    (normal : Normal .closed (afterText none slice) more) : Normal .closed none (copy ++ more) := by
  have item := normal_dropBlanks normal
  cases again with
  | plain => exact item
  | spaced =>
      obtain ⟨c, rest, begins, notBlank⟩ := (dropBlanks_begins slice).resolve_left notEmpty
      rw [begins] at item ⊢
      cases item with
      | space => cases notBlank
      | char _ others => exact .space (.char notBlank others)

end WrittenAgain

/-- What stands in a normal form behind some text may stand behind a character that is no blank. -/
theorem Normal.behind_char {gap : Gap} (normal : Normal gap none text) :
    Normal .closed none text := by
  cases normal with
  | nil => exact .nil nofun
  | space others => exact .space others
  | char notBlank others => exact .char notBlank others

/-- A text in normal form up to a place, and another one from there on. -/
theorem Normal.replace_rest {gap : Gap} {other : List Char}
    (normal : Normal gap open_ (text ++ more))
    (others : Normal (gapAfter gap open_ text) (afterText open_ text) more →
      Normal (gapAfter gap open_ text) (afterText open_ text) other) :
    Normal gap open_ (text ++ other) := by
  induction text generalizing gap open_ with
  | nil => exact others normal
  | cons c rest ih =>
      cases normal with
      | inside remaining => exact .inside (ih remaining others)
      | space remaining => exact .space (ih remaining others)
      | char notBlank remaining =>
          rw [gapAfter_cons, notBlank] at others
          exact .char notBlank (ih remaining others)

/-! ## Keywords in parts of a text -/

section

variable {keyword other : List Char}

/-- The first part of a text that is free of a keyword is so before the second. -/
theorem Free.left (free : Free keyword open_ (text ++ other) more) :
    Free keyword open_ text (other ++ more) := by
  rintro before after rfl notEmpty outside
  rw [← List.append_assoc]
  exact free before (after ++ other) (List.append_assoc ..)
    (List.append_ne_nil_of_left_ne_nil notEmpty _)
    outside

/-- The second part of a text that is free of a keyword is so. -/
theorem Free.right (free : Free keyword open_ (text ++ other) more) :
    Free keyword (afterText open_ text) other more := by
  rintro before after rfl notEmpty outside
  refine free (text ++ before) after (List.append_assoc ..).symm notEmpty ?_
  rw [afterText_append, outside]

/-- A text both parts of which are free of a keyword. -/
theorem Free.append (free : Free keyword open_ text (other ++ more))
    (freeToo : Free keyword (afterText open_ text) other more) :
    Free keyword open_ (text ++ other) more := by
  induction text generalizing open_ with
  | nil => exact freeToo
  | cons c rest ih =>
      refine Free.cons (ih free.tail freeToo) fun outside => ?_
      have notHere := free [] (c :: rest) rfl nofun outside
      rwa [← List.append_assoc] at notHere

/-- A keyword does not begin in front of a comma and end behind it. -/
theorem Free.before_comma (noComma : ',' ∉ keyword) (free : Free keyword open_ text more)
    (other : List Char) : Free keyword open_ text (',' :: other) := by
  rintro before after rfl notEmpty outside here
  have whole : lowered (after ++ ',' :: other) =
      (after.map Char.toLower ++ [',']) ++ lowered other := by
    rw [lowered, lowered, List.map_append, List.append_assoc, List.append_assoc]
    rfl
  have upTo : after.map Char.toLower ++ [','] <+: lowered (after ++ ',' :: other) :=
    whole ▸ List.prefix_append _ _
  have inside : ' ' :: keyword <+: after.map Char.toLower := by
    rcases List.prefix_or_prefix_of_prefix here upTo with shorter | longer
    · rcases List.prefix_concat_iff.mp shorter with same | shorter
      · have comma : ',' ∈ ' ' :: keyword := same ▸ List.mem_concat_self
        exact absurd (List.mem_of_ne_of_mem (by decide) comma) noComma
      · exact shorter
    · have comma : ',' ∈ ' ' :: keyword := longer.subset List.mem_concat_self
      exact absurd (List.mem_of_ne_of_mem (by decide) comma) noComma
  refine free before after rfl notEmpty outside (inside.trans ?_)
  rw [lowered, List.map_append, List.append_assoc]
  exact List.prefix_append _ _

/-- No keyword begins at a character that is no blank. -/
theorem Free.cons_of_not_isBlank {c : Char} (notBlank : isBlank c = false)
    (free : Free keyword (afterChar open_ c) text more) : Free keyword open_ (c :: text) more := by
  refine free.cons fun _ here => ?_
  obtain ⟨isSpace, _⟩ := List.cons_prefix_cons.mp here
  rw [(Text.toLower_eq_iff (by decide)).mp isSpace.symm] at notBlank
  cases notBlank

/-- No keyword begins in an item. -/
theorem free_dropBlanks (keyword : List Char) (open_ : Option Char) (text more : List Char) :
    Free keyword open_ (dropBlanks open_ text) more := by
  induction text generalizing open_ with
  | nil =>
      intro before after split notEmpty
      cases open_ <;> exact absurd (List.append_eq_nil_iff.mp split.symm).2 notEmpty
  | cons c rest ih =>
      cases open_ with
      | some quote => exact (ih _).cons nofun
      | none =>
          rw [dropBlanks]
          split
          · exact ih none
          · next notBlank => exact (ih _).cons_of_not_isBlank (Bool.eq_false_iff.mpr notBlank)

/-- A keyword with a space behind it is not in an item. -/
theorem not_word_isPrefix (slice : List Char) :
    ¬ Clause.table.word <+: (dropBlanks none slice).map Char.toLower := by
  rintro ⟨rest, split⟩
  obtain ⟨front, after, whole, upToBlank, _⟩ := List.map_eq_append_iff.mp split.symm
  obtain ⟨letters, blank, rfl, isKeyword, isBlank⟩ := List.map_eq_append_iff.mp upToBlank
  have outside : afterText none letters = none := by
    rw [← afterText_map_toLower isQuote_of_none, isKeyword]
    rfl
  have notEmpty : blank ≠ [] := by
    rintro rfl
    cases isBlank
  rw [List.append_assoc] at whole
  refine free_dropBlanks [] none slice [] letters (blank ++ after) whole
    (List.append_ne_nil_of_left_ne_nil notEmpty _) outside ?_
  rw [lowered, List.map_append, List.map_append, isBlank]
  exact List.prefix_append _ _

/-- In front of a comma, a space or the end of a text no word goes on. -/
theorem lowered_begins (ends : ∀ c ∈ text.head?, c = ',' ∨ c = ' ') :
    ∃ c rest, lowered text = c :: rest ∧ c ∉ Clause.table.keyword.toList := by
  cases text with
  | nil => exact ⟨' ', [], rfl, by decide⟩
  | cons c rest =>
      rcases ends c rfl with rfl | rfl
      · exact ⟨',', lowered rest, rfl, by decide⟩
      · exact ⟨' ', lowered rest, rfl, by decide⟩

/-- The keyword of the table clause is not read where an item begins that is not the keyword, if a
comma or a space follows the item. -/
theorem not_keyword_isPrefix
    (noKeyword : (dropBlanks none slice).map Char.toLower ≠ Clause.table.keyword.toList)
    (ends : ∀ c ∈ more.head?, c = ',' ∨ c = ' ') :
    ¬ Clause.table.word <+: lowered (dropBlanks none slice ++ more) := by
  intro here
  obtain ⟨c, rest, lowered_eq, notLetter⟩ := lowered_begins ends
  rw [lowered, List.map_append, List.append_assoc, ← lowered, lowered_eq] at here
  have upTo : (dropBlanks none slice).map Char.toLower ++ [c] <+:
      (dropBlanks none slice).map Char.toLower ++ c :: rest :=
    (List.prefix_append_right_inj _).mpr (List.prefix_append [c] rest)
  rcases List.prefix_or_prefix_of_prefix here upTo with shorter | longer
  · rcases List.prefix_concat_iff.mp shorter with same | inside
    · exact noKeyword (List.append_inj_left' same rfl).symm
    · exact not_word_isPrefix slice inside
  · rcases List.prefix_concat_iff.mp longer with same | inside
    · exact noKeyword (List.append_inj_left' same rfl)
    · exact notLetter (inside.subset List.mem_concat_self)

/-- The keyword of the table clause does not begin in an item that is written once more. -/
theorem WrittenAgain.free {copy : List Char} (again : WrittenAgain slice copy)
    (ends : ∀ c ∈ more.head?, c = ',' ∨ c = ' ') : Free Clause.table.word none copy more := by
  have item := free_dropBlanks Clause.table.word none slice more
  cases again with
  | plain => exact item
  | spaced noKeyword =>
      exact item.cons fun _ here =>
        not_keyword_isPrefix noKeyword ends (List.cons_prefix_cons.mp here).2

end

/-! ## Insertions -/

/-- An item is put into a text outside literals, at the end or where a comma follows, with a comma
in front of it. -/
inductive Insertion : List Char → List Char → Prop where
  | item {front slice copy behind : List Char} (outside : afterText none front = none)
      (closed : afterText none slice = none) (notEmpty : dropBlanks none slice ≠ [])
      (again : WrittenAgain slice copy) (ends : ∀ c ∈ behind.head?, c = ',') :
      Insertion (front ++ behind) (front ++ (',' :: copy ++ behind))

namespace Insertion

/-- What is put in leaves no literal open. -/
theorem afterText_item {copy : List Char} (closed : afterText none slice = none)
    (again : WrittenAgain slice copy) : afterText none (',' :: copy) = none :=
  again.afterText_eq.trans closed

theorem afterText_eq (insertion : Insertion text longer) :
    afterText none longer = afterText none text := by
  cases insertion with
  | item outside closed _ again =>
      rw [afterText_append, afterText_append, afterText_append, outside,
        afterText_item closed again]

/-- **An insertion brings in no keyword of a table clause.** -/
theorem free (insertion : Insertion text longer) (ends : ∀ c ∈ more.head?, c = ' ')
    (free : Free Clause.table.word none text more) : Free Clause.table.word none longer more := by
  cases insertion with
  | @item front slice copy behind outside closed notEmpty again endsToo =>
      have behindFree := free.right
      rw [outside] at behindFree
      have marks : ∀ c ∈ (behind ++ more).head?, c = ',' ∨ c = ' ' := by
        cases behind with
        | nil => exact fun c isFirst => .inr (ends c isFirst)
        | cons => exact fun c isFirst => .inl (endsToo c isFirst)
      have itemFree : Free Clause.table.word none (',' :: copy) (behind ++ more) :=
        (again.free marks).cons_of_not_isBlank (by decide)
      refine (free.left.before_comma (by decide) _).append ?_
      rw [outside]
      refine itemFree.append ?_
      rwa [afterText_item closed again]

/-- **An insertion keeps the normal form.** -/
theorem normal (insertion : Insertion text longer) (normal : Normal .start none (text ++ more)) :
    Normal .start none (longer ++ more) := by
  cases insertion with
  | @item front slice copy behind outside closed notEmpty again =>
      rw [List.append_assoc] at normal ⊢
      refine normal.replace_rest ?_
      rw [outside, List.append_assoc]
      intro others
      have closes : Normal .closed (afterText none slice) (behind ++ more) := by
        rw [closed]
        exact others.behind_char
      exact .char (by decide) (again.normal notEmpty closes)

end Insertion

/-- Insertions one after another. -/
abbrev Insertions : List Char → List Char → Prop :=
  Relation.ReflTransGen Insertion

namespace Insertions

theorem afterText_eq (insertions : Insertions text longer) :
    afterText none longer = afterText none text := by
  induction insertions with
  | refl => rfl
  | tail _ insertion ih => rw [insertion.afterText_eq, ih]

theorem free (insertions : Insertions text longer) (ends : ∀ c ∈ more.head?, c = ' ')
    (free : Free Clause.table.word none text more) : Free Clause.table.word none longer more := by
  induction insertions with
  | refl => exact free
  | tail _ insertion ih => exact insertion.free ends ih

theorem normal (insertions : Insertions text longer) (normal : Normal .start none (text ++ more)) :
    Normal .start none (longer ++ more) := by
  induction insertions with
  | refl => exact normal
  | tail _ insertion ih => exact insertion.normal ih

end Insertions

/-- The slices behind the first, as they stand in a select list. -/
def behindCommas (slices : List (List Char)) : List Char :=
  slices.flatMap (',' :: ·)

theorem behindCommas_cons (slice : List Char) (slices : List (List Char)) :
    behindCommas (slice :: slices) = ',' :: slice ++ behindCommas slices :=
  List.flatMap_cons

theorem joinChars_eq_behindCommas (slice : List Char) (slices : List (List Char)) :
    joinChars ',' (slice :: slices) = slice ++ behindCommas slices := by
  induction slices generalizing slice with
  | nil => exact (List.append_nil slice).symm
  | cons next others ih =>
      rw [joinChars, ih, behindCommas_cons]
      rfl

/-- **Copies of items are insertions.** -/
theorem Insertions.of_withCopies {seen slices others : List (List Char)}
    (copies : WithCopies WrittenAgain seen slices others)
    (sound : ∀ slice ∈ seen ++ slices, afterText none slice = none ∧ dropBlanks none slice ≠ [])
    {front : List Char} (outside : afterText none front = none) :
    Insertions (front ++ behindCommas slices) (front ++ behindCommas others) := by
  induction copies generalizing front with
  | nil => exact .refl
  | @keep seen slices others first _ ih =>
      have inFront : ∀ slices : List (List Char), front ++ behindCommas (first :: slices) =
          (front ++ ',' :: first) ++ behindCommas slices := by
        intro slices
        rw [behindCommas_cons, List.append_assoc]
      have firstClosed : afterText none (',' :: first) = none :=
        (sound first (List.mem_append_right seen List.mem_cons_self)).1
      rw [inFront, inFront]
      refine ih (fun slice member => sound slice (List.perm_middle.symm.subset member)) ?_
      rw [afterText_append, outside, firstClosed]
  | @copy seen slices others source copy old again _ ih =>
      obtain ⟨closed, notEmpty⟩ := sound source (List.mem_append_left _ old)
      rw [behindCommas_cons]
      refine (ih sound outside).tail (.item outside closed notEmpty again ?_)
      cases others with
      | nil => nofun
      | cons next rest => exact fun c isFirst => (Option.some.inj isFirst).symm

/-- **Copies behind the first item are insertions behind what stands in front of it.** -/
theorem Insertions.joined_of_withCopies {slices others : List (List Char)}
    (copies : WithCopies WrittenAgain [] slices others)
    (sound : ∀ slice ∈ slices, afterText none slice = none ∧ dropBlanks none slice ≠ [])
    {front : List Char} (outside : afterText none front = none) :
    Insertions (front ++ joinChars ',' slices) (front ++ joinChars ',' others) := by
  cases copies with
  | nil => exact .refl
  | copy old => exact absurd old List.not_mem_nil
  | keep first copies =>
      rw [joinChars_eq_behindCommas, joinChars_eq_behindCommas, ← List.append_assoc,
        ← List.append_assoc]
      refine .of_withCopies copies sound ?_
      rw [afterText_append, outside, (sound first List.mem_cons_self).1]

/-! ## The longer list -/

section

variable {depth last : Nat} {lastOpen : Option Char}

theorem Uncut.afterText_eq (uncut : Uncut depth open_ text last lastOpen) :
    afterText open_ text = lastOpen := by
  induction uncut with
  | nil => rfl
  | cons _ _ ih => exact ih

/-- No more parentheses are open than have been opened. -/
theorem Uncut.depth_le (uncut : Uncut depth open_ text last lastOpen) :
    last ≤ depth + text.count '(' := by
  induction uncut with
  | nil => exact Nat.le_add_right _ _
  | @cons depth last open_ lastOpen c rest _ _ ih =>
      have step : depthWith open_ depth c + rest.count '(' ≤ depth + (c :: rest).count '(' := by
        rw [List.count_cons, depthWith, depthAfter]
        by_cases opening : c = '('
        · subst opening
          split
          · simp
            omega
          · simp
        · rw [if_neg opening]
          split
          · split <;> omega
          · omega
      exact Nat.le_trans ih step

/-- The two parts of a text without cuts have none. -/
theorem Uncut.exists_of_append (uncut : Uncut depth open_ (text ++ more) last lastOpen) :
    ∃ middle middleOpen, Uncut depth open_ text middle middleOpen ∧
      Uncut middle middleOpen more last lastOpen := by
  induction text generalizing depth open_ with
  | nil => exact ⟨depth, open_, .nil, uncut⟩
  | cons c rest ih =>
      cases uncut with
      | cons notCut others =>
          obtain ⟨middle, middleOpen, first, second⟩ := ih others
          exact ⟨middle, middleOpen, .cons notCut first, second⟩

/-- An item has no cuts if its slice has none. -/
theorem Uncut.dropBlanks (uncut : Uncut depth open_ text last lastOpen) :
    Uncut depth open_ (Query.dropBlanks open_ text) last lastOpen := by
  induction uncut with
  | @nil depth open_ => cases open_ <;> exact .nil
  | @cons depth last open_ lastOpen c rest notCut _ ih =>
      cases open_ with
      | some quote => exact .cons notCut ih
      | none =>
          rw [Query.dropBlanks]
          split
          · next blank =>
            rwa [depthWith_of_isBlank blank, afterChar_of_isBlank blank] at ih
          · exact .cons notCut ih

/-- Neither has an item that is written once more. -/
theorem Uncut.writtenAgain {copy : List Char} (uncut : Uncut 0 none slice last lastOpen)
    (again : WrittenAgain slice copy) : Uncut 0 none copy last lastOpen := by
  cases again with
  | plain => exact uncut.dropBlanks
  | spaced => exact .cons (by decide) uncut.dropBlanks

/-- **The slice of an item that is accepted ends outside parentheses**, if it closes its literals.
-/
theorem Uncut.of_reads {item : SelectItem} (uncut : Uncut 0 none slice last lastOpen)
    (closed : afterText none slice = none)
    (read : SelectItem.Reads (Query.dropBlanks none slice) item) :
    Uncut 0 none slice 0 none := by
  obtain rfl : none = lastOpen := closed.symm.trans uncut.afterText_eq
  have dropped := uncut.dropBlanks
  generalize Query.dropBlanks none slice = text at dropped read
  suffices last = 0 from this ▸ uncut
  cases read with
  | path isPath =>
      have bound := dropped.depth_le
      rw [List.count_eq_zero.mpr isPath] at bound
      exact Nat.le_zero.mp bound
  | @call name inner isName oneLevel =>
      have noOpening : '(' ∉ inner := fun member => (oneLevel _ member).1 rfl
      have one : (name ++ '(' :: inner).count '(' = 1 := by
        rw [List.count_append, List.count_cons_self, List.count_eq_zero.mpr isName,
          List.count_eq_zero.mpr noOpening]
      rw [← List.cons_append, ← List.append_assoc] at dropped
      obtain ⟨middle, middleOpen, before, closing⟩ := dropped.exists_of_append
      have bound := before.depth_le
      rw [one] at bound
      have marks : ∀ mark ∈ middleOpen, isQuote mark = true :=
        before.afterText_eq ▸ isQuote_of_afterText isQuote_of_none _
      cases closing with
      | cons _ others =>
          have kept := afterChar_of_not_isQuote marks (by decide : isQuote ')' = false)
          have outside := others.afterText_eq
          rw [kept] at outside
          obtain rfl : middleOpen = none := outside
          cases others with
          | nil =>
              have closes : depthWith none middle ')' = middle - 1 := rfl
              omega

end

/-- Texts that end outside literals and parentheses are slices. -/
theorem sliced_of_uncut {slices : List (List Char)} (notEmpty : slices ≠ [])
    (uncut : ∀ slice ∈ slices, Uncut 0 none slice 0 none) : Sliced 0 none slices := by
  induction slices with
  | nil => exact absurd rfl notEmpty
  | cons first others ih =>
      have firstUncut := uncut first List.mem_cons_self
      cases others with
      | nil => exact .last firstUncut
      | cons next rest =>
          exact .cons firstUncut
            (ih nofun fun slice member => uncut slice (List.mem_cons_of_mem _ member))

/-- The slices of items that are accepted end outside literals and parentheses. -/
theorem Sliced.uncut {slices : List (List Char)} (sliced : Sliced 0 none slices)
    (closed : afterText none (joinChars ',' slices) = none)
    (accepted : ∀ slice ∈ slices, ∃ item, SelectItem.Reads (dropBlanks none slice) item) :
    ∀ slice ∈ slices, Uncut 0 none slice 0 none := by
  induction slices with
  | nil => nofun
  | cons first others ih =>
      obtain ⟨item, read⟩ := accepted first List.mem_cons_self
      have remaining := fun slice member => accepted slice (List.mem_cons_of_mem first member)
      intro slice member
      cases sliced with
      | last uncut =>
          obtain rfl := List.mem_singleton.mp member
          exact uncut.of_reads closed read
      | cons uncut sliced =>
          rcases List.mem_cons.mp member with rfl | later
          · exact uncut
          · rw [joinChars, afterText_append, uncut.afterText_eq] at closed
            exact ih sliced closed remaining slice later

/-- The items of a select list are its slices without their blanks, and none of them is empty. -/
theorem splitSelectList_eq_ok_iff {list : String} {items : List String} :
    splitSelectList list = .ok items ↔
      (¬ ((slicesFrom 0 none list.toList).map (dropBlanks none)).any List.isEmpty = true) ∧
        items = ((slicesFrom 0 none list.toList).map (dropBlanks none)).map String.ofList := by
  rw [splitSelectList, itemsFrom_eq, blanksDropped_none]
  split
  · next anyEmpty => exact ⟨nofun, fun both => absurd anyEmpty both.1⟩
  · next noneEmpty =>
      exact ⟨fun same => ⟨noneEmpty, (Except.ok.inj same).symm⟩, fun both => both.2 ▸ rfl⟩

/-- The slices of items that are accepted end outside literals and parentheses. -/
theorem uncut_slices {list : String} {items : List String}
    (split : splitSelectList list = .ok items) (closed : afterText none list.toList = none)
    (accepted : ∀ item ∈ items, ∃ read, SelectItem.ofText? item = some read) :
    ∀ slice ∈ slicesFrom 0 none list.toList, Uncut 0 none slice 0 none := by
  refine (sliced_slicesFrom 0 none list.toList).uncut ?_ fun slice member => ?_
  · rw [joinChars_slicesFrom, closed]
  · have listed : String.ofList (dropBlanks none slice) ∈ items := by
      rw [(splitSelectList_eq_ok_iff.mp split).2]
      exact List.mem_map_of_mem (List.mem_map_of_mem member)
    obtain ⟨read, found⟩ := accepted _ listed
    exact ⟨read, SelectItem.reads_of_ofText? found⟩

/-- The slices of a select list have items. -/
theorem dropBlanks_ne_nil_of_split {list : String} {items : List String}
    (split : splitSelectList list = .ok items) :
    ∀ slice ∈ slicesFrom 0 none list.toList, dropBlanks none slice ≠ [] := by
  intro slice member empty
  refine (splitSelectList_eq_ok_iff.mp split).1 (List.any_eq_true.mpr ⟨[], ?_, rfl⟩)
  exact empty ▸ List.mem_map_of_mem member

/-- **The longer list has the items of the old one with the same copies.** -/
theorem splitSelectList_withCopies {list : String} {items : List String} {others : List (List Char)}
    (split : splitSelectList list = .ok items)
    (uncut : ∀ slice ∈ slicesFrom 0 none list.toList, Uncut 0 none slice 0 none)
    (copies : WithCopies WrittenAgain [] (slicesFrom 0 none list.toList) others) :
    ∃ longer, splitSelectList (String.ofList (joinChars ',' others)) = .ok longer ∧
      WithCopies Eq [] items longer := by
  have sliced : Sliced 0 none others := by
    refine sliced_of_uncut ?_ fun slice member => ?_
    · rintro rfl
      generalize same : slicesFrom 0 none list.toList = slices at copies
      cases copies
      exact slicesFrom_ne_nil _ _ _ same
    · rcases copies.mem slice member with kept | ⟨source, old, again⟩
      · exact uncut slice kept
      · exact (uncut source old).writtenAgain again
  have noneEmpty : ¬ (others.map (dropBlanks none)).any List.isEmpty = true := by
    intro anyEmpty
    obtain ⟨item, listed, empty⟩ := List.any_eq_true.mp anyEmpty
    obtain ⟨slice, member, rfl⟩ := List.mem_map.mp listed
    have sources := dropBlanks_ne_nil_of_split split
    rcases copies.mem slice member with kept | ⟨source, old, again⟩
    · exact sources slice kept (List.isEmpty_iff.mp empty)
    · exact sources source old (again.dropBlanks_eq.symm.trans (List.isEmpty_iff.mp empty))
  have dropped : WithCopies Eq [] ((slicesFrom 0 none list.toList).map (dropBlanks none))
      (others.map (dropBlanks none)) :=
    copies.map (dropBlanks none) fun _ _ again => again.dropBlanks_eq.symm
  obtain ⟨_, rfl⟩ := splitSelectList_eq_ok_iff.mp split
  refine ⟨(others.map (dropBlanks none)).map String.ofList, ?_,
    dropped.map String.ofList fun _ _ same => congrArg String.ofList same⟩
  rw [splitSelectList_eq_ok_iff, String.toList_ofList, slicesFrom_joinChars sliced]
  exact ⟨noneEmpty, rfl⟩

/-! ## Layouts -/

/-- The layout with another select list. -/
def Layout.withSelect (layout : Layout) (list : List Char) : Layout :=
  { layout with select := { layout.select with text := list } }

/-- **A layout stays sound when items are put into its select list.** -/
theorem Layout.Sound.withSelect {layout : Layout} (sound : layout.Sound) {list : List Char}
    (notEmpty : list ≠ [])
    (insertions : Insertions layout.select.written (layout.select.keyword ++ list)) :
    (layout.withSelect list).Sound where
  select := by
    refine ⟨sound.select.spelling, notEmpty, ?_⟩
    have closed := insertions.afterText_eq.trans sound.select.written_closed
    rwa [afterText_append, sound.select.keyword_closed] at closed
  table := sound.table
  filter := sound.filter
  order := sound.order
  tableFirst := by
    obtain ⟨rest, begins⟩ := sound.table.begins nofun
    have next : ∀ c ∈
        (layout.table.written ++ (written? layout.filter? ++ written? layout.order?)).head?,
        c = ' ' := by
      rw [begins, List.cons_append]
      exact fun c isFirst => (Option.some.inj isFirst).symm
    exact insertions.free next sound.tableFirst
  filterFirst := sound.filterFirst
  filterAbsent := sound.filterAbsent
  orderFirst := sound.orderFirst

/-- **The longer query is split into the longer select list and the clauses of the old one.** -/
theorem Layout.Sound.splitClauses_withSelect {layout : Layout} (sound : layout.Sound)
    (normal : Normal .start none layout.text) (closed : afterText none layout.text = none)
    {list : List Char} (notEmpty : list ≠ [])
    (insertions : Insertions layout.select.written (layout.select.keyword ++ list)) :
    splitClauses (String.ofList (layout.withSelect list).text) =
      .ok { layout.clauses with select := String.ofList list } := by
  have soundToo := sound.withSelect notEmpty insertions
  have normalToo : Normal .start none (layout.withSelect list).text := insertions.normal normal
  have closedToo : afterText none (layout.withSelect list).text = none := by
    rw [Layout.text, afterText_append, sound.select.written_closed] at closed
    rw [Layout.text, afterText_append, soundToo.select.written_closed]
    exact closed
  refine bind_ok (normalize_of_normal normalToo closedToo) ?_
  rw [String.toList_ofList, soundToo.splitNormal_layout normalToo]
  rfl

/-- What stands in front of the select list is the keyword if it is as long, and behind it are the
other phrases. -/
theorem Layout.Sound.around_select {layout : Layout} (sound : layout.Sound) {front rest : List Char}
    (whole : layout.text = front ++ (layout.select.text ++ rest)) (keyword : front.length = 7) :
    front = layout.select.keyword ∧
      rest = layout.table.written ++ (written? layout.filter? ++ written? layout.order?) := by
  have parts : front ++ (layout.select.text ++ rest) = layout.select.keyword ++
      (layout.select.text ++
        (layout.table.written ++ (written? layout.filter? ++ written? layout.order?))) :=
    whole.symm.trans (List.append_assoc ..)
  obtain ⟨inFront, behind⟩ := List.append_inj parts (keyword.trans sound.select.length_keyword.symm)
  exact ⟨inFront, List.append_cancel_left behind⟩

/-- **A query with copies in its select list has the other clauses unchanged.** Its normal form is
that of the query with the copies written behind the keyword of the select clause. -/
theorem splitClauses_withCopies {query other normal : String} {clauses : Clauses}
    {items : List String} {front rest : List Char} {others : List (List Char)}
    (splits : splitClauses query = .ok clauses)
    (listed : splitSelectList clauses.select = .ok items)
    (accepted : ∀ item ∈ items, ∃ read, SelectItem.ofText? item = some read)
    (normalized : normalize query = .ok normal)
    (whole : normal.toList = front ++ (clauses.select.toList ++ rest)) (keyword : front.length = 7)
    (copies : WithCopies WrittenAgain [] (slicesFrom 0 none clauses.select.toList) others)
    (same : normalize other = normalize (String.ofList (front ++ (joinChars ',' others ++ rest)))) :
    ∃ longer, splitClauses other =
        .ok { clauses with select := String.ofList (joinChars ',' others) } ∧
      splitSelectList (String.ofList (joinChars ',' others)) = .ok longer ∧
      WithCopies Eq [] items longer := by
  obtain ⟨isNormal, closed⟩ := normal_of_normalize normalized
  have split : splitNormal normal.toList = .ok clauses := by
    rw [splitClauses, normalized] at splits
    exact splits
  obtain ⟨layout, sound, text_eq, rfl⟩ := (splitNormal_eq_ok_iff isNormal closed).mp split
  have select_eq : layout.clauses.select.toList = layout.select.text := String.toList_ofList
  have uncut := uncut_slices listed (by rw [select_eq]; exact sound.select.closed) accepted
  obtain ⟨longer, listedToo, copied⟩ := splitSelectList_withCopies listed uncut copies
  refine ⟨longer, ?_, listedToo, copied⟩
  have notEmpty : joinChars ',' others ≠ [] := by
    intro empty
    rw [empty] at listedToo
    cases listedToo
  rw [select_eq] at uncut whole copies
  have notEmptyItem := dropBlanks_ne_nil_of_split listed
  rw [select_eq] at notEmptyItem
  have insertions := Insertions.joined_of_withCopies copies
    (fun slice member => ⟨(uncut slice member).afterText_eq, notEmptyItem slice member⟩)
    sound.select.keyword_closed
  rw [joinChars_slicesFrom] at insertions
  rw [← text_eq] at isNormal closed whole
  obtain ⟨rfl, rfl⟩ := sound.around_select whole keyword
  have longerText : layout.select.keyword ++ (joinChars ',' others ++
      (layout.table.written ++ (written? layout.filter? ++ written? layout.order?))) =
      (layout.withSelect (joinChars ',' others)).text :=
    (List.append_assoc ..).symm
  have splitLonger := sound.splitClauses_withSelect isNormal closed notEmpty insertions
  rw [splitClauses, same, longerText]
  exact splitLonger

end Query

end EntityQuery

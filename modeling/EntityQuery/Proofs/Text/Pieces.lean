import EntityQuery.Text.Word
import Mathlib.Data.List.TakeWhile

/-!
# Pieces of a text between separators

A text up to its first separator has none, and what is left begins with it, if it has one
(`exists_of_mem`). So the pieces between separators have none, and pieces without separators are
those of what they make up together (`splitChars_joinChars`).
-/

set_option autoImplicit false

namespace EntityQuery.Text

variable {separator c : Char} {text : List Char}

/-! ## The first separator -/

theorem all_ne (noSeparator : separator ∉ text) : ∀ c ∈ text, decide (c ≠ separator) = true := by
  intro c member
  refine decide_eq_true ?_
  rintro rfl
  exact noSeparator member

theorem dropWhile_of_notMem (noSeparator : separator ∉ text) :
    text.dropWhile (· ≠ separator) = [] :=
  List.dropWhile_eq_nil_iff.mpr (all_ne noSeparator)

theorem notMem_takeWhile (separator : Char) (text : List Char) :
    separator ∉ text.takeWhile (· ≠ separator) := by
  intro member
  have differs := List.mem_takeWhile_imp member
  simp at differs

/-- What is left behind the characters before the first separator begins with it. -/
theorem eq_of_head?_dropWhile (isFirst : c ∈ (text.dropWhile (· ≠ separator)).head?) :
    c = separator := by
  have stops := List.head?_dropWhile_not (· ≠ separator) text
  rw [Option.mem_def.mp isFirst] at stops
  simpa using stops

/-- A text with a separator: what stands before the first, and what behind it. -/
theorem exists_of_mem (member : separator ∈ text) :
    ∃ rest, text = text.takeWhile (· ≠ separator) ++ separator :: rest ∧
      text.dropWhile (· ≠ separator) = separator :: rest := by
  have whole := (text.takeWhile_append_dropWhile (p := (· ≠ separator))).symm
  cases left : text.dropWhile (· ≠ separator) with
  | nil =>
      have none := List.dropWhile_eq_nil_iff.mp left separator member
      simp at none
  | cons c rest =>
      obtain rfl : c = separator := eq_of_head?_dropWhile (by rw [left]; rfl)
      rw [left] at whole
      exact ⟨rest, whole, rfl⟩

/-- A text without separators before one, or before nothing. -/
theorem split_append {front rest : List Char} (noSeparator : separator ∉ front)
    (ends : ∀ c ∈ rest.head?, c = separator) :
    (front ++ rest).takeWhile (· ≠ separator) = front ∧
      (front ++ rest).dropWhile (· ≠ separator) = rest := by
  have differ := all_ne noSeparator
  rw [List.takeWhile_append_of_pos differ, List.dropWhile_append_of_pos differ]
  cases rest with
  | nil => exact ⟨List.append_nil front, rfl⟩
  | cons c more =>
      obtain rfl := ends c rfl
      simp

/-! ## Pieces -/

/-- The pieces between separators: what stands before the first of them, and the pieces behind it.
-/
theorem splitChars_eq (separator : Char) (text : List Char) :
    splitChars separator text = text.takeWhile (· ≠ separator) ::
      match text.dropWhile (· ≠ separator) with
      | [] => []
      | _ :: rest => splitChars separator rest := by
  induction text with
  | nil => rfl
  | cons c rest ih =>
      rw [splitChars]
      by_cases same : c = separator
      · simp [same]
      · simp [same, ih]

theorem joinChars_cons (separator : Char) (text : List Char) {texts : List (List Char)}
    (notEmpty : texts ≠ []) :
    joinChars separator (text :: texts) = text ++ separator :: joinChars separator texts := by
  obtain ⟨next, more, rfl⟩ := List.exists_cons_of_ne_nil notEmpty
  rfl

theorem mem_joinChars {separator c : Char} {texts : List (List Char)}
    (member : c ∈ joinChars separator texts) : c = separator ∨ ∃ text ∈ texts, c ∈ text := by
  induction texts with
  | nil => cases member
  | cons text rest ih =>
      cases rest with
      | nil => exact .inr ⟨text, List.mem_cons_self .., member⟩
      | cons next more =>
          rcases List.mem_append.mp member with first | later
          · exact .inr ⟨text, List.mem_cons_self .., first⟩
          · rcases List.mem_cons.mp later with isSeparator | inRest
            · exact .inl isSeparator
            · rcases ih inRest with isSeparator | ⟨other, listed, within⟩
              · exact .inl isSeparator
              · exact .inr ⟨other, List.mem_cons_of_mem _ listed, within⟩

/-- A piece between separators has none, and consists of characters of the text. -/
theorem mem_splitChars {separator : Char} {text piece : List Char}
    (listed : piece ∈ splitChars separator text) : separator ∉ piece ∧ ∀ c ∈ piece, c ∈ text := by
  induction text generalizing piece with
  | nil =>
      obtain rfl := List.mem_singleton.mp listed
      exact ⟨nofun, nofun⟩
  | cons d rest ih =>
      have later : ∀ other ∈ splitChars separator rest, separator ∉ other ∧
          ∀ c ∈ other, c ∈ d :: rest :=
        fun other member =>
          ⟨(ih member).1, fun c within => List.mem_cons_of_mem _ ((ih member).2 c within)⟩
      rw [splitChars] at listed
      split at listed
      · rcases List.mem_cons.mp listed with rfl | others
        · exact ⟨nofun, nofun⟩
        · exact later piece others
      · next differs =>
        obtain ⟨first, others, same⟩ :=
          List.exists_cons_of_ne_nil (splitChars_ne_nil separator rest)
        rw [same] at listed later
        rcases List.mem_cons.mp listed with rfl | member
        · have inner := later first (List.mem_cons_self ..)
          refine ⟨fun isThere => ?_, fun c within => ?_⟩
          · rcases List.mem_cons.mp isThere with rfl | isBehind
            · exact differs rfl
            · exact inner.1 isBehind
          · rcases List.mem_cons.mp within with rfl | isBehind
            · exact List.mem_cons_self ..
            · exact inner.2 c isBehind
        · exact later piece (List.mem_cons_of_mem _ member)

/-- Splitting undoes joining. -/
theorem splitChars_joinChars {separator : Char} {pieces : List (List Char)} (notEmpty : pieces ≠ [])
    (apart : ∀ piece ∈ pieces, separator ∉ piece) :
    splitChars separator (joinChars separator pieces) = pieces := by
  induction pieces with
  | nil => exact absurd rfl notEmpty
  | cons piece rest ih =>
      have noSeparator := apart piece (List.mem_cons_self ..)
      rw [splitChars_eq]
      cases rest with
      | nil =>
          obtain ⟨before, behind⟩ := @split_append separator piece [] noSeparator (by simp)
          rw [List.append_nil] at before behind
          rw [joinChars, before, behind]
      | cons next more =>
          obtain ⟨before, behind⟩ := @split_append separator piece
            (separator :: joinChars separator (next :: more)) noSeparator (by simp)
          rw [joinChars, before, behind]
          exact congrArg (piece :: ·) (ih (List.cons_ne_nil next more) fun other member =>
            apart other (List.mem_cons_of_mem _ member))

end EntityQuery.Text

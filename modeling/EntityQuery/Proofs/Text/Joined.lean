import Mathlib.Algebra.GroupWithZero.Nat
import Mathlib.Algebra.Order.BigOperators.Group.List
import Mathlib.Algebra.Order.Group.Nat
import Mathlib.Data.List.Basic

/-!
# Lengths of joined texts

Parts joined by commas are as long as the parts and the commas between them (`length_intercalate`),
so they get longer if a part does and none gets shorter (`length_intercalate_lt`).
-/

set_option autoImplicit false

namespace EntityQuery

/-- The length of parts that are each followed by one more character. -/
def textLength (parts : List String) : Nat :=
  (parts.map fun part => part.length + 1).sum

theorem length_intercalate (parts : List String) :
    (String.intercalate "," parts).length = textLength parts - 1 := by
  induction parts with
  | nil => rfl
  | cons part rest ih =>
      cases rest with
      | nil => simp [textLength]
      | cons next more =>
          have parted : textLength (part :: next :: more) =
              part.length + 1 + textLength (next :: more) :=
            List.sum_cons
          have nonempty : 0 < textLength (next :: more) := by
            rw [textLength, List.map_cons, List.sum_cons]
            omega
          have comma : ",".length = 1 := rfl
          rw [String.intercalate_cons_cons, String.length_append, String.length_append, ih,
            parted, comma]
          omega

section Longer

variable {α : Type} {parts : List α} {first second : α → String}

theorem textLength_le (noShorter : ∀ part ∈ parts, (first part).length ≤ (second part).length) :
    textLength (parts.map first) ≤ textLength (parts.map second) := by
  rw [textLength, textLength, List.map_map, List.map_map]
  exact List.sum_le_sum fun part member => Nat.succ_le_succ (noShorter part member)

theorem textLength_lt (noShorter : ∀ part ∈ parts, (first part).length ≤ (second part).length)
    (longer : ∃ part ∈ parts, (first part).length < (second part).length) :
    textLength (parts.map first) < textLength (parts.map second) := by
  rw [textLength, textLength, List.map_map, List.map_map]
  refine List.sum_lt_sum _ _ (fun part member => Nat.succ_le_succ (noShorter part member)) ?_
  obtain ⟨part, member, longer⟩ := longer
  exact ⟨part, member, Nat.succ_lt_succ longer⟩

theorem length_intercalate_le
    (noShorter : ∀ part ∈ parts, (first part).length ≤ (second part).length) :
    (String.intercalate "," (parts.map first)).length ≤
      (String.intercalate "," (parts.map second)).length := by
  rw [length_intercalate, length_intercalate]
  exact Nat.sub_le_sub_right (textLength_le noShorter) 1

/-- **Joined parts get longer** if one of them does and none gets shorter. -/
theorem length_intercalate_lt
    (noShorter : ∀ part ∈ parts, (first part).length ≤ (second part).length)
    (longer : ∃ part ∈ parts, (first part).length < (second part).length) :
    (String.intercalate "," (parts.map first)).length <
      (String.intercalate "," (parts.map second)).length := by
  have less := textLength_lt noShorter longer
  -- A single part has no comma, so there must be a part for the texts to differ.
  have nonempty : 0 < textLength (parts.map first) := by
    obtain ⟨part, member, -⟩ := longer
    obtain ⟨front, rest, rfl⟩ := List.append_of_mem member
    simp only [textLength, List.map_append, List.map_cons, List.sum_append, List.sum_cons]
    omega
  rw [length_intercalate, length_intercalate]
  omega

end Longer

end EntityQuery

import Mathlib.Data.List.Basic
import Mathlib.Data.String.Basic

/-!
# The order of octets

Texts are ordered by the code points of their characters. In UTF-8 that is also the order of their
octets: of two characters the lower is written with the lower octets (`encode_below`), and hence of
two texts (`utf8Octets_lt_iff`).
-/

set_option autoImplicit false

namespace EntityQuery

/-- The octets of a text in UTF-8. -/
def utf8Octets (text : String) : List UInt8 :=
  text.toUTF8.data.toList

theorem utf8Octets_eq (text : String) :
    utf8Octets text = text.toList.flatMap String.utf8EncodeChar := by
  rw [utf8Octets, String.toUTF8, ← String.utf8Encode_toList, List.utf8Encode]
  simp

/-- Two sequences of octets agree up to a place in which the first has the lower octet. -/
inductive OctetsBelow : List UInt8 → List UInt8 → Prop
  | here {low high : UInt8} (lower : low < high) (first second : List UInt8) :
      OctetsBelow (low :: first) (high :: second)
  | later (shared : UInt8) {first second : List UInt8} (below : OctetsBelow first second) :
      OctetsBelow (shared :: first) (shared :: second)

namespace OctetsBelow

/-- What follows the sequences does not matter. -/
theorem append_lt {first second : List UInt8} (below : OctetsBelow first second)
    (afterFirst afterSecond : List UInt8) : first ++ afterFirst < second ++ afterSecond := by
  induction below with
  | here lower first second => exact List.Lex.rel lower
  | later shared below ih => exact List.Lex.cons ih

/-- A lower first octet decides. -/
theorem lead {low high : Nat} {first second : List UInt8} (lower : low < high)
    (bounded : high < 256) :
    OctetsBelow (UInt8.ofNat low :: first) (UInt8.ofNat high :: second) :=
  .here ((UInt8.ofNat_lt_iff_lt (lower.trans bounded) bounded).mpr lower) first second

/-- The first octets decide, unless they are the same. -/
theorem cons {low high : Nat} {first second : List UInt8} (bounded : high < 256)
    (order : low ≤ high) (rest : low = high → OctetsBelow first second) :
    OctetsBelow (UInt8.ofNat low :: first) (UInt8.ofNat high :: second) := by
  rcases order.lt_or_eq with lower | same
  · exact lead lower bounded
  · subst same
    exact .later _ (rest rfl)

end OctetsBelow

/-- **A lower character is written with lower octets.** The first octet tells how many there are,
and more octets are for higher characters; as many octets are digits of the code point, the highest
first. -/
theorem encode_below {low high : Char} (lower : low < high) :
    OctetsBelow (String.utf8EncodeChar low) (String.utf8EncodeChar high) := by
  have order : low.val.toNat < high.val.toNat := lower
  have bounded : high.val.toNat < 1114112 := by
    rcases high.valid with small | ⟨_, large⟩
    · exact small.trans (by decide)
    · exact large
  unfold String.utf8EncodeChar
  generalize low.val.toNat = first at order
  generalize high.val.toNat = second at order bounded
  have longer : ∀ {bound : Nat}, ¬ first ≤ bound → ¬ second ≤ bound :=
    fun long short => long (by omega)
  -- the cases are how many octets the lower character takes, and then how many the higher one
  dsimp only
  split
  · split
    · exact .lead order (by omega)
    · split
      · exact .lead (by omega) (by omega)
      · split <;> exact .lead (by omega) (by omega)
  next long =>
    rw [if_neg (longer long)]
    split
    · split
      · exact .cons (by omega) (by omega) fun _ => .lead (by omega) (by omega)
      · split <;> exact .lead (by omega) (by omega)
    next long =>
      rw [if_neg (longer long)]
      split
      · split
        · exact .cons (by omega) (by omega) fun _ =>
            .cons (by omega) (by omega) fun _ => .lead (by omega) (by omega)
        · exact .lead (by omega) (by omega)
      next long =>
        rw [if_neg (longer long)]
        exact .cons (by omega) (by omega) fun _ => .cons (by omega) (by omega) fun _ =>
          .cons (by omega) (by omega) fun _ => .lead (by omega) (by omega)

theorem encode_ne_nil (letter : Char) : String.utf8EncodeChar letter ≠ [] := by
  rw [← List.length_pos_iff, String.length_utf8EncodeChar]
  exact Char.utf8Size_pos letter

/-- The octets of a lower sequence of characters are lower. -/
theorem flatMap_encode_lt {first second : List Char} (lower : first < second) :
    first.flatMap String.utf8EncodeChar < second.flatMap String.utf8EncodeChar := by
  induction lower with
  | nil =>
      rename_i letter rest
      obtain ⟨octet, others, encoded⟩ := List.exists_cons_of_ne_nil (encode_ne_nil letter)
      rw [List.flatMap_cons, encoded]
      exact List.Lex.nil
  | rel lower => exact (encode_below lower).append_lt _ _
  | cons _ ih => exact List.append_left_lt ih

/-- **The order of texts is that of their octets in UTF-8.** -/
theorem utf8Octets_lt_iff {first second : String} :
    utf8Octets first < utf8Octets second ↔ first < second := by
  have below : ∀ {low high : String}, low < high → utf8Octets low < utf8Octets high :=
    fun lower => by
    rw [utf8Octets_eq, utf8Octets_eq]
    exact flatMap_encode_lt (String.lt_iff_toList_lt.mp lower)
  refine ⟨fun lower => ?_, below⟩
  rcases lt_trichotomy first second with before | rfl | after
  · exact before
  · exact absurd lower (List.lt_irrefl _)
  · exact absurd lower (List.lt_asymm (below after))

end EntityQuery

import EntityQuery.Proofs.Clauses.NormalForm

/-!
# Places of keywords

The keywords of clauses are looked for in small letters and outside literals. The search passes over
a text in which the keyword begins at no place outside its literals (`Free`,
`findKeywordFrom?_of_free`), and it ends at the first place where the keyword does
(`findKeywordFrom?_cases`).
-/

set_option autoImplicit false

namespace EntityQuery

namespace Text

theorem isUpper_iff {c : Char} : c.isUpper = true ↔ 65 ≤ c.val.toNat ∧ c.val.toNat ≤ 90 := by
  have whole : c.isUpper = decide (65 ≤ c.val ∧ c.val ≤ 90) := rfl
  rw [whole, decide_eq_true_eq, UInt32.le_iff_toNat_le, UInt32.le_iff_toNat_le]
  rfl

theorem isLower_iff {c : Char} : c.isLower = true ↔ 97 ≤ c.val.toNat ∧ c.val.toNat ≤ 122 := by
  have whole : c.isLower = (decide (97 ≤ c.val) && decide (c.val ≤ 122)) := rfl
  rw [whole, Bool.and_eq_true, decide_eq_true_eq, decide_eq_true_eq, UInt32.le_iff_toNat_le,
    UInt32.le_iff_toNat_le]
  rfl

theorem isAlpha_of_isUpper {c : Char} (capital : c.isUpper = true) : c.isAlpha = true :=
  (Bool.or_eq_true _ _).mpr (.inl capital)

theorem isAlpha_of_isLower {c : Char} (small : c.isLower = true) : c.isAlpha = true :=
  (Bool.or_eq_true _ _).mpr (.inr small)

/-- A character that is not a small letter already is made one only if it is a capital. -/
theorem toLower_cases (c : Char) :
    c.toLower = c ∨ (c.isUpper = true ∧ c.toLower.isLower = true) := by
  unfold Char.toLower
  split
  · next capital =>
    right
    have least := UInt32.le_iff_toNat_le.mp capital.1
    have greatest := UInt32.le_iff_toNat_le.mp capital.2
    simp at least greatest
    refine ⟨isUpper_iff.mpr ⟨least, greatest⟩, isLower_iff.mpr ?_⟩
    rw [UInt32.toNat_add]
    simp
    omega
  · exact .inl rfl

/-- What is not a letter of ASCII has one form only. -/
theorem toLower_eq_iff {c d : Char} (notLetter : d.isAlpha = false) : c.toLower = d ↔ c = d := by
  rcases toLower_cases c with same | ⟨capital, small⟩
  · rw [same]
  · have notUpper := (Bool.or_eq_false_iff.mp notLetter).1
    have notLower := (Bool.or_eq_false_iff.mp notLetter).2
    constructor
    · rintro rfl
      rw [notLower] at small
      cases small
    · rintro rfl
      rw [notUpper] at capital
      cases capital

end Text

namespace Query

/-- A text as keywords are looked for in it, in small letters and with a space behind it. -/
def lowered (text : List Char) : List Char :=
  text.map Char.toLower ++ [' ']

/-- The keyword, a space and some letters, begins at no place of the text outside its literals,
where `more` follows the text. -/
def Free (keyword : List Char) (open_ : Option Char) (text more : List Char) : Prop :=
  ∀ before after, text = before ++ after → after ≠ [] → afterText open_ before = none →
    ¬ ' ' :: keyword <+: lowered (after ++ more)

/-- Letters of ASCII are no quotation marks. -/
theorem isQuote_of_isAlpha {c : Char} (letter : c.isAlpha = true) : isQuote c = false := by
  cases quote : isQuote c with
  | false => rfl
  | true => rcases isQuote_eq_true_iff.mp quote with rfl | rfl <;> exact absurd letter (by decide)

/-- The case of a character makes no difference to what it opens or closes. -/
theorem afterChar_toLower {open_ : Option Char} (marks : ∀ mark ∈ open_, isQuote mark = true)
    (c : Char) : afterChar open_ c.toLower = afterChar open_ c := by
  rcases Text.toLower_cases c with same | ⟨capital, small⟩
  · rw [same]
  · rw [afterChar_of_not_isQuote marks (isQuote_of_isAlpha (Text.isAlpha_of_isUpper capital)),
      afterChar_of_not_isQuote marks (isQuote_of_isAlpha (Text.isAlpha_of_isLower small))]

section

variable {keyword : List Char} {from_ place : Nat} {open_ : Option Char} {text more : List Char}

theorem Free.tail {c : Char} (free : Free keyword open_ (c :: text) more) :
    Free keyword (afterChar open_ c) text more := by
  intro before after split notEmpty closed
  exact free (c :: before) after (congrArg _ split) notEmpty closed

theorem Free.cons {c : Char} (free : Free keyword (afterChar open_ c) text more)
    (notHere : open_ = none → ¬ ' ' :: keyword <+: lowered (c :: text ++ more)) :
    Free keyword open_ (c :: text) more := by
  intro before after split notEmpty closed
  cases before with
  | nil =>
      obtain rfl : c :: text = after := split
      exact notHere closed
  | cons first others =>
      obtain ⟨rfl, rfl⟩ := List.cons.inj split
      exact free others after rfl notEmpty closed

/-- A place that is not where the keyword begins is passed over. -/
theorem findKeywordFrom?_cons {c : Char} (marks : ∀ mark ∈ open_, isQuote mark = true)
    (notHere : open_ = none → from_ ≤ place → ¬ ' ' :: keyword <+: lowered (c :: text)) :
    findKeywordFrom? (' ' :: keyword) from_ open_ place (lowered (c :: text)) =
      findKeywordFrom? (' ' :: keyword) from_ (afterChar open_ c) (place + 1) (lowered text) := by
  have same := afterChar_toLower marks c
  have step : lowered (c :: text) = c.toLower :: lowered text := rfl
  cases open_ with
  | some quote =>
      rw [step, findKeywordFrom?, same]
  | none =>
      rw [step, findKeywordFrom?, same, if_neg]
      rintro ⟨_, reached, here⟩
      exact notHere rfl reached (List.isPrefixOf_iff_prefix.mp here)

/-- The search passes over a text if at no place of it that is reached the keyword begins. -/
theorem findKeywordFrom?_append (marks : ∀ mark ∈ open_, isQuote mark = true)
    (nowhere : ∀ before after, text = before ++ after → after ≠ [] → afterText open_ before = none →
      from_ ≤ place + before.length → ¬ ' ' :: keyword <+: lowered (after ++ more)) :
    findKeywordFrom? (' ' :: keyword) from_ open_ place (lowered (text ++ more)) =
      findKeywordFrom? (' ' :: keyword) from_ (afterText open_ text) (place + text.length)
        (lowered more) := by
  induction text generalizing open_ place with
  | nil => rfl
  | cons c rest ih =>
      have nowhereBehind : ∀ before after, rest = before ++ after → after ≠ [] →
          afterText (afterChar open_ c) before = none → from_ ≤ place + 1 + before.length →
            ¬ ' ' :: keyword <+: lowered (after ++ more) := by
        intro before after split notEmpty outside reached
        refine nowhere (c :: before) after (congrArg _ split) notEmpty outside ?_
        rwa [List.length_cons, Nat.add_comm before.length, ← Nat.add_assoc]
      rw [List.cons_append, findKeywordFrom?_cons marks,
        ih (isQuote_of_afterChar marks c) nowhereBehind, List.length_cons, Nat.add_assoc,
        Nat.add_comm 1]
      · rfl
      · exact nowhere [] (c :: rest) rfl nofun

/-- **The search passes over a text that is free of the keyword.** -/
theorem findKeywordFrom?_of_free (marks : ∀ mark ∈ open_, isQuote mark = true)
    (free : Free keyword open_ text more) :
    findKeywordFrom? (' ' :: keyword) from_ open_ place (lowered (text ++ more)) =
      findKeywordFrom? (' ' :: keyword) from_ (afterText open_ text) (place + text.length)
        (lowered more) :=
  findKeywordFrom?_append marks fun before after split notEmpty outside _ =>
    free before after split notEmpty outside

/-- The search passes over the places before the one where it begins. -/
theorem findKeywordFrom?_of_le (marks : ∀ mark ∈ open_, isQuote mark = true)
    (early : place + text.length ≤ from_) :
    findKeywordFrom? (' ' :: keyword) from_ open_ place (lowered (text ++ more)) =
      findKeywordFrom? (' ' :: keyword) from_ (afterText open_ text) (place + text.length)
        (lowered more) := by
  refine findKeywordFrom?_append marks fun before after split notEmpty _ reached => ?_
  have longer := List.length_pos_iff.mpr notEmpty
  rw [split, List.length_append] at early
  exact absurd reached (by omega)

/-- The search ends where the keyword is. -/
theorem findKeywordFrom?_here (reached : from_ ≤ place) (here : ' ' :: keyword <+: lowered text) :
    findKeywordFrom? (' ' :: keyword) from_ none place (lowered text) = some place := by
  cases whole : lowered text with
  | nil =>
      rw [whole] at here
      exact absurd (List.prefix_nil.mp here) nofun
  | cons first others =>
      rw [whole] at here
      obtain ⟨rfl, _⟩ := List.cons_prefix_cons.mp here
      rw [findKeywordFrom?, if_pos]
      exact ⟨by decide, reached, List.isPrefixOf_iff_prefix.mpr here⟩

/-- **The search finds nothing in a text that is free of the keyword, and otherwise its first
place.** -/
theorem findKeywordFrom?_cases (marks : ∀ mark ∈ open_, isQuote mark = true)
    (notEmpty : keyword ≠ []) (reached : from_ ≤ place) (text : List Char) :
    (findKeywordFrom? (' ' :: keyword) from_ open_ place (lowered text) = none ∧
        Free keyword open_ text []) ∨
      ∃ before after, text = before ++ after ∧
        findKeywordFrom? (' ' :: keyword) from_ open_ place (lowered text) =
          some (place + before.length) ∧
        afterText open_ before = none ∧ ' ' :: keyword <+: lowered after ∧
        Free keyword open_ before after := by
  induction text generalizing open_ place with
  | nil =>
      left
      refine ⟨?_, fun before after split notEmpty => ?_⟩
      · obtain ⟨first, others, rfl⟩ := List.exists_cons_of_ne_nil notEmpty
        cases open_ with
        | some quote => rfl
        | none => simp [lowered, findKeywordFrom?]
      · exact absurd (List.append_eq_nil_iff.mp split.symm).2 notEmpty
  | cons c rest ih =>
      by_cases here : open_ = none ∧ ' ' :: keyword <+: lowered (c :: rest)
      · obtain ⟨rfl, here⟩ := here
        right
        refine ⟨[], c :: rest, rfl, findKeywordFrom?_here reached here, rfl, here, ?_⟩
        intro before after split notEmpty
        exact absurd (List.append_eq_nil_iff.mp split.symm).2 notEmpty
      · have notHere : open_ = none → ¬ ' ' :: keyword <+: lowered (c :: rest) :=
          fun outside begins => here ⟨outside, begins⟩
        rw [findKeywordFrom?_cons marks fun outside _ => notHere outside]
        rcases ih (isQuote_of_afterChar marks c) (Nat.le_succ_of_le reached) with
          ⟨missing, free⟩ | ⟨before, after, rfl, found, closed, begins, free⟩
        · refine .inl ⟨missing, free.cons ?_⟩
          rwa [List.append_nil]
        · refine .inr ⟨c :: before, after, rfl, ?_, closed, begins, free.cons notHere⟩
          rw [found, List.length_cons, Nat.succ_add_eq_add_succ]

end

end Query

end EntityQuery

import EntityQuery.Proofs.Clauses.Solid
import EntityQuery.Proofs.Renaming.Spelling
import EntityQuery.Text.Lowercase

/-!
# Lower case and literals

Lower case makes no blanks and no quotation marks, and leaves those that are there
(`lowerForm_cases`). So a text in lower case has its literals where they were, and is tight if it
was (`lowercase_keeps`).
-/

set_option autoImplicit false

namespace EntityQuery.Query

open Text (isBlank lowerChar lowerAfter lowercase)

/-- The code points of blanks and of quotation marks. -/
def separatingCodes : List Nat :=
  '\''.toNat :: '"'.toNat :: blankCodes

/-- A character with another code point is bare. -/
theorem bare_of_notMem_separatingCodes {c : Char} (apart : c.toNat ∉ separatingCodes) :
    Bare [c] := by
  intro d member
  obtain rfl := List.mem_singleton.mp member
  constructor
  · cases blank : isBlank d with
    | false => rfl
    | true =>
        exact absurd (List.mem_cons_of_mem _ (List.mem_cons_of_mem _ (mem_blankCodes blank))) apart
  · cases quote : isQuote d with
    | false => rfl
    | true =>
        rcases isQuote_eq_true_iff.mp quote with rfl | rfl <;> exact absurd (by decide) apart

/-- The capital letters, and the small ones that they become, are apart from blanks and quotation
marks. -/
theorem caseRuns_apart : ∀ run ∈ Text.caseRuns, ∀ code ∈ separatingCodes,
    (code < run.first ∨ run.last < code) ∧
      (code < run.target ∨ run.target + (run.last - run.first) < code) := by
  decide +kernel

/-- A character stays as it is in lower case, or neither it nor what it becomes is a blank or a
quotation mark. -/
theorem lowerChar_cases (c : Char) : lowerChar c = [c] ∨ Bare [c] ∧ Bare (lowerChar c) := by
  rw [lowerChar]
  split
  · rcases Text.toLower_cases c with same | ⟨capital, small⟩
    · exact .inl (congrArg (fun d => [d]) same)
    · have bare : ∀ {d : Char}, isWordChar d = true → Bare [d] := by
        intro d isWord other member
        obtain rfl := List.mem_singleton.mp member
        exact ⟨isBlank_of_isWordChar isWord, isQuote_of_isWordChar isWord⟩
      exact .inr ⟨bare (isWordChar_of_isAlpha (Text.isAlpha_of_isUpper capital)),
        bare (isWordChar_of_isAlpha (Text.isAlpha_of_isLower small))⟩
  · split
    · next dotted =>
      rw [dotted]
      exact .inr ⟨by decide, by decide⟩
    · split
      · next code found =>
        obtain ⟨run, listed, becomes⟩ := List.exists_of_findSome?_eq_some found
        rw [Text.CaseRun.lower?, Option.ite_none_right_eq_some] at becomes
        obtain ⟨⟨low, high, _⟩, same⟩ := becomes
        obtain rfl := Option.some.inj same
        refine .inr ⟨bare_of_notMem_separatingCodes fun member => ?_,
          bare_of_notMem_separatingCodes fun member => ?_⟩
        · have apart := (caseRuns_apart run listed _ member).1
          omega
        · by_cases valid : (run.target + (c.toNat - run.first)).isValidChar
          · have code : (Char.ofNat (run.target + (c.toNat - run.first))).toNat =
                run.target + (c.toNat - run.first) := by
              rw [Char.ofNat, dif_pos valid]
              rfl
            rw [code] at member
            have apart := (caseRuns_apart run listed _ member).2
            omega
          · rw [Char.ofNat, dif_neg valid] at member
            exact absurd member (by decide)
      · exact .inl rfl

/-- **Lower case keeps literals in their places.** -/
theorem lowerAfter_keeps {open_ : Option Char} (marks : ∀ mark ∈ open_, isQuote mark = true)
    (before text : List Char) :
    afterText open_ (lowerAfter before text) = afterText open_ text ∧
      (Tight open_ text → Tight open_ (lowerAfter before text)) := by
  induction text generalizing open_ before with
  | nil => exact ⟨rfl, id⟩
  | cons c rest ih =>
      rw [lowerAfter]
      generalize form_eq :
        (if c =
          'Σ' then (if Text.startsCased before && !Text.startsCased rest then ['ς'] else ['σ'])
          else lowerChar c) = form
      have shape : form = [c] ∨ Bare [c] ∧ Bare form := by
        subst form_eq
        split
        · next sigma =>
          rw [sigma]
          split <;> exact .inr ⟨by decide, by decide⟩
        · exact lowerChar_cases c
      obtain ⟨after, tight⟩ := ih (isQuote_of_afterChar marks c) (c :: before)
      rcases shape with rfl | ⟨bare, bareForm⟩
      · refine ⟨after, fun whole => ?_⟩
        cases whole with
        | cons visible others => exact .cons visible (tight others)
      · have same : afterChar open_ c = open_ := bare.afterText_eq marks
        rw [same] at after tight
        refine ⟨?_, fun whole => ?_⟩
        · rw [afterText_append, bareForm.afterText_eq marks, after, afterText, afterText,
            List.foldl_cons, same]
        · cases whole with
          | cons _ others =>
              rw [same] at others
              exact tight_append_iff.mpr
                ⟨bareForm.tight, (bareForm.afterText_eq marks).symm ▸ tight others⟩

/-- **A text in lower case has its literals where they were.** -/
theorem lowercase_keeps (text : List Char) :
    afterText none (lowercase text) = afterText none text ∧
      (Tight none text → Tight none (lowercase text)) :=
  lowerAfter_keeps isQuote_of_none [] text

end EntityQuery.Query

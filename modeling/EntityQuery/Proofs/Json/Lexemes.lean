import EntityQuery.Json.Lexeme

/-!
# Lexemes, one after another

The lexemes of a text are read in a bounded number of steps. Every lexeme leaves less text than
there was before it, whichever of its alternatives was read (`length_lexeme?`), so the bound is
never reached (`lexemesWithin_congr`). The lexemes of a text are therefore a first one and those of
what it leaves (`lexemes_eq`), without any bound.
-/

set_option autoImplicit false

namespace EntityQuery.Json

variable {c : Char} {text rest : List Char} {lexeme : Lexeme} {pieces : List Piece}

/-! ## What a lexeme leaves behind -/

/-- There is a digit before the point. -/
theorem length_whole? {whole : List Char} (found : whole? text = some (whole, rest)) :
    rest.length < text.length := by
  have nonempty : text.takeWhile Char.isDigit ≠ [] → 0 < text.length := by
    cases text <;> simp
  unfold whole? at found
  split at found
  · cases found
  · next digits =>
    cases found
    have positive := nonempty (by simp [digits])
    simp only [List.length_drop]
    omega
  · cases found
  · next digits none_ _ _ =>
    cases found
    have positive := nonempty none_
    have digit := List.length_pos_iff.mpr none_
    simp only [List.length_drop]
    omega

theorem length_fraction? {fraction : List Char} (found : fraction? text = some (fraction, rest)) :
    rest.length ≤ text.length := by
  unfold fraction? at found
  split at found
  · dsimp only at found
    split at found
    · cases found
    · cases found
      simp
      omega
  · cases found
    exact Nat.le_refl _

theorem length_exponentDigits? {negative : Bool} {exponent : Option Int}
    (found : exponentDigits? negative text = some (exponent, rest)) :
    rest.length ≤ text.length := by
  unfold exponentDigits? at found
  dsimp only at found
  split at found
  · cases found
  · cases found
    simp

theorem length_exponent? {exponent : Option Int} (found : exponent? text = some (exponent, rest)) :
    rest.length ≤ text.length := by
  unfold exponent? at found
  split at found
  · split at found
    · split at found
      all_goals
        have shorter := length_exponentDigits? found
        simp at shorter ⊢
        omega
    · cases found
      exact Nat.le_refl _
  · cases found
    exact Nat.le_refl _

theorem length_numeral? {negative : Bool} {numeral : Numeral}
    (found : numeral? negative text = some (numeral, rest)) : rest.length < text.length := by
  obtain ⟨⟨whole, behindWhole⟩, first, found⟩ := Option.bind_eq_some_iff.mp found
  obtain ⟨⟨fraction, behindFraction⟩, second, found⟩ := Option.bind_eq_some_iff.mp found
  obtain ⟨⟨exponent, behindExponent⟩, third, found⟩ := Option.bind_eq_some_iff.mp found
  cases found
  exact Nat.lt_of_le_of_lt (Nat.le_trans (length_exponent? third) (length_fraction? second))
    (length_whole? first)

theorem length_pieces? (found : pieces? text = some (pieces, rest)) :
    rest.length ≤ text.length := by
  fun_induction pieces? text generalizing pieces rest with
  | case1 => cases found
  | case2 =>
      cases found
      simp
  | case3 a b c d behind ih =>
      obtain ⟨unit, -, found⟩ := Option.bind_eq_some_iff.mp found
      obtain ⟨⟨others, left⟩, inner, found⟩ := Option.bind_eq_some_iff.mp found
      cases found
      have shorter := ih inner
      simp only [List.length_cons]
      omega
  | case4 letter behind _ ih =>
      obtain ⟨c, -, found⟩ := Option.bind_eq_some_iff.mp found
      obtain ⟨⟨others, left⟩, inner, found⟩ := Option.bind_eq_some_iff.mp found
      cases found
      have shorter := ih inner
      simp only [List.length_cons]
      omega
  | case5 => cases found
  | case6 c behind _ _ _ _ ih =>
      obtain ⟨⟨others, left⟩, inner, found⟩ := Option.map_eq_some_iff.mp found
      cases found
      have shorter := ih inner
      simp only [List.length_cons]
      omega

theorem length_afterWord? {word : List Char} (found : afterWord? word text = some rest) :
    rest.length ≤ text.length := by
  unfold afterWord? at found
  split at found
  · cases found
    simp
  · cases found

/-- A lexeme leaves no more text than there is behind its first character. -/
theorem length_lexeme? (found : lexeme? c text = some (lexeme, rest)) :
    rest.length ≤ text.length := by
  unfold lexeme? at found
  split at found
  iterate 6
    · cases found
      exact Nat.le_refl _
  iterate 3
    · obtain ⟨_, inner, found⟩ := Option.map_eq_some_iff.mp found
      cases found
      exact length_afterWord? inner
  · obtain ⟨_, inner, found⟩ := Option.map_eq_some_iff.mp found
    cases found
    exact length_pieces? inner
  · obtain ⟨_, inner, found⟩ := Option.map_eq_some_iff.mp found
    cases found
    exact Nat.le_of_lt (length_numeral? inner)
  · obtain ⟨_, inner, found⟩ := Option.map_eq_some_iff.mp found
    cases found
    exact Nat.le_of_lt_succ (length_numeral? inner)

/-- A lexeme behind separators leaves less than the text. -/
theorem length_of_first {behind : List Char} (left : text.dropWhile isSeparator = c :: behind)
    (found : lexeme? c behind = some (lexeme, rest)) : rest.length < text.length := by
  have shorter := (List.dropWhile_suffix isSeparator (l := text)).length_le
  rw [left, List.length_cons] at shorter
  exact Nat.lt_of_le_of_lt (length_lexeme? found) shorter

/-! ## The lexemes of a text -/

theorem lexemesWithin_nil (fuel : Nat) : lexemesWithin fuel [] = [] := by
  cases fuel <;> rfl

/-- The number of steps that are allowed makes no difference where it is enough. -/
theorem lexemesWithin_congr {fuel other : Nat} (enough : text.length ≤ fuel)
    (enoughToo : text.length ≤ other) : lexemesWithin fuel text = lexemesWithin other text := by
  induction fuel generalizing text other with
  | zero =>
      rw [List.length_eq_zero_iff.mp (Nat.le_zero.mp enough), lexemesWithin_nil, lexemesWithin_nil]
  | succ fuel ih =>
      cases other with
      | zero =>
          rw [List.length_eq_zero_iff.mp (Nat.le_zero.mp enoughToo), lexemesWithin_nil,
            lexemesWithin_nil]
      | succ other =>
          rw [lexemesWithin, lexemesWithin]
          cases left : text.dropWhile isSeparator with
          | nil => rfl
          | cons c rest =>
              dsimp only
              cases first : lexeme? c rest with
              | none => rfl
              | some found =>
                  have less := length_of_first left first
                  exact congrArg (found.1 :: ·) (ih (by omega) (by omega))

/-- **The lexemes of a text**: separators are left out, and behind a first lexeme are those of what
it leaves. -/
theorem lexemes_eq (text : List Char) :
    lexemes text =
      match text.dropWhile isSeparator with
      | [] => []
      | c :: rest =>
        match lexeme? c rest with
        | none => [.fault]
        | some (lexeme, rest) => lexeme :: lexemes rest := by
  have once : lexemes text = lexemesWithin (text.length + 1) text :=
    lexemesWithin_congr (Nat.le_refl _) (Nat.le_succ _)
  rw [once, lexemesWithin]
  cases left : text.dropWhile isSeparator with
  | nil => rfl
  | cons c rest =>
      dsimp only
      cases first : lexeme? c rest with
      | none => rfl
      | some found =>
          have less := length_of_first left first
          exact congrArg (found.1 :: ·) (lexemesWithin_congr (Nat.le_of_lt less) (Nat.le_refl _))

theorem lexemes_separator (separates : isSeparator c = true) :
    lexemes (c :: text) = lexemes text := by
  rw [lexemes_eq, lexemes_eq text, List.dropWhile_cons_of_pos separates]

theorem lexemes_cons (visible : isSeparator c = false)
    (first : lexeme? c text = some (lexeme, rest)) :
    lexemes (c :: text) = lexeme :: lexemes rest := by
  rw [lexemes_eq, List.dropWhile_cons_of_neg (Bool.eq_false_iff.mp visible)]
  simp only [first]

end EntityQuery.Json

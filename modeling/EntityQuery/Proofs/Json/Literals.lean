import EntityQuery.Json.Numeral
import EntityQuery.Json.Printer
import EntityQuery.Proofs.Json.Lexemes
import EntityQuery.Proofs.Text.Digits

/-!
# Written literals

A written string and a written integer are one lexeme each, wherever they stand, an integer if what
follows does not go on with the number. The string is read as its text (`lexemes_quoted`), and the
number of an integer that fits 64 bits is the integer (`number?_ofInt`), which its digits never
leave for a double.
-/

set_option autoImplicit false

namespace EntityQuery.Json

variable {c : Char} {text rest : List Char}

/-! ## Strings -/

/-- A character is put before pieces that were read. -/
def before (c : Char) (found : List Piece × List Char) : List Piece × List Char :=
  (.char c :: found.1, found.2)

theorem pieces?_letter {letter : Char} (named : escaped? letter = some c) :
    pieces? ('\\' :: letter :: text) = (pieces? text).map (before c) := by
  have notUnit : letter ≠ 'u' := by
    rintro rfl
    cases named
  rw [pieces?, named]
  · cases pieces? text <;> rfl
  · rintro _ _ _ _ _ rfl
    exact absurd rfl notUnit

theorem pieces?_unit {high low : Char} {unit : Nat}
    (value : Text.hexValue? ['0', '0', high, low] = some unit) :
    pieces? ('\\' :: 'u' :: '0' :: '0' :: high :: low :: text) =
      (pieces? text).map fun found => (.ofUnit unit :: found.1, found.2) := by
  rw [pieces?, value]
  cases pieces? text <;> rfl

theorem pieces?_plain (visible : ¬ c.toNat < 0x20) (noMark : c ≠ '"') (noEscape : c ≠ '\\') :
    pieces? (c :: text) = (pieces? text).map (before c) := by
  rw [pieces?.eq_def]
  split
  · next none_ => cases none_
  · next same => exact absurd (List.cons.inj same).1 noMark
  · next same => exact absurd (List.cons.inj same).1 noEscape
  · next same => exact absurd (List.cons.inj same).1 noEscape
  · next same =>
    obtain ⟨rfl, rfl⟩ := List.cons.inj same
    rw [if_neg (not_or.mpr ⟨visible, noEscape⟩)]
    rfl

/-- A control character is escaped by two hexadecimal digits, which have its number as their value.
-/
theorem hexDigits_control : ∀ unit < 0x20, ∃ high low, Text.hexDigits 2 unit = [high, low] ∧
    Text.hexValue? ['0', '0', high, low] = some unit ∧
    Piece.ofUnit unit = .char (Char.ofNat unit) := by
  have two : ∀ unit < 0x20, (Text.hexDigits 2 unit).length = 2 ∧
      Text.hexValue? ('0' :: '0' :: Text.hexDigits 2 unit) = some unit ∧
      Piece.ofUnit unit = .char (Char.ofNat unit) := by decide
  intro unit control
  obtain ⟨length, value, piece⟩ := two unit control
  match digits : Text.hexDigits 2 unit, length with
  | [high, low], _ => exact ⟨high, low, rfl, digits ▸ value, piece⟩

/-- **A written character is read as itself.** -/
theorem pieces?_escape (c : Char) (text : List Char) :
    pieces? (escape c ++ text) = (pieces? text).map (before c) := by
  unfold escape
  split
  iterate 7
    · exact pieces?_letter rfl
  · next noMark noEscape _ _ _ _ _ =>
    split
    · next control =>
      obtain ⟨high, low, digits, value, piece⟩ := hexDigits_control c.toNat control
      rw [digits]
      refine (pieces?_unit value).trans ?_
      rw [piece, Char.ofNat_toNat]
      rfl
    · next visible => exact pieces?_plain visible noMark noEscape

/-- The pieces of a written text are its characters. -/
theorem pieces?_escaped (text rest : List Char) :
    pieces? (text.flatMap escape ++ '"' :: rest) = some (text.map .char, rest) := by
  induction text with
  | nil => rfl
  | cons c text ih =>
      rw [List.flatMap_cons, List.append_assoc, pieces?_escape, ih]
      rfl

theorem textOfPieces?_char (text : List Char) : textOfPieces? (text.map .char) = some text := by
  induction text with
  | nil => rfl
  | cons c text ih =>
      rw [List.map_cons, textOfPieces?, ih]
      rfl

/-- **A written string is read as its text.** -/
theorem lexemes_quoted (text : String) (rest : List Char) :
    lexemes ((quoted text).toList ++ rest) = .string (some text) :: lexemes rest := by
  have first : lexeme? '"' (text.toList.flatMap escape ++ '"' :: rest) =
      some (.string (some text), rest) := by
    rw [lexeme?, pieces?_escaped]
    simp [textOfPieces?_char]
  rw [← lexemes_cons rfl first]
  simp [quoted]

/-! ## Integers -/

/-- The numeral of an integer in its canonical form: a sign if it is negative, and its digits. -/
def Numeral.ofInt (value : Int) : Numeral where
  negative := decide (value < 0)
  whole := Nat.toDigits 10 value.natAbs
  fraction := []
  exponent? := none

/-- A text does not go on with the number before it. -/
def EndsNumber (rest : List Char) : Prop :=
  ∀ c ∈ rest.head?, c.isDigit = false ∧ c ≠ '.' ∧ c ≠ 'e' ∧ c ≠ 'E'

theorem whole?_toDigits (n : Nat) (ends : EndsNumber rest) :
    whole? (Nat.toDigits 10 n ++ rest) = some (Nat.toDigits 10 n, rest) := by
  obtain ⟨digits, -⟩ := Text.takeWhile_toDigits n fun c first => (ends c first).1
  unfold whole?
  rw [digits]
  split
  · next none_ => exact absurd none_ Nat.toDigits_ne_nil
  · next zero => rw [zero]; rfl
  · next notAlone zero =>
    by_cases none_ : n = 0
    · rw [none_, Nat.toDigits_zero] at zero
      exact absurd (List.cons.inj zero).2.symm notAlone
    · exact absurd (by rw [zero]; rfl) (Text.head?_toDigits_ne none_)
  · rw [List.drop_left]

theorem fraction?_none (ends : EndsNumber rest) : fraction? rest = some ([], rest) := by
  unfold fraction?
  split
  · exact absurd rfl (ends '.' rfl).2.1
  · rfl

theorem exponent?_none (ends : EndsNumber rest) : exponent? rest = some (none, rest) := by
  unfold exponent?
  split
  · next mark more =>
    obtain ⟨-, -, small, capital⟩ := ends mark rfl
    rw [if_neg (not_or.mpr ⟨small, capital⟩)]
  · rfl

theorem numeral?_toDigits (negative : Bool) (n : Nat) (ends : EndsNumber rest) :
    numeral? negative (Nat.toDigits 10 n ++ rest) =
      some (⟨negative, Nat.toDigits 10 n, [], none⟩, rest) := by
  unfold numeral?
  rw [whole?_toDigits n ends]
  dsimp only [Option.bind_eq_bind, Option.bind_some]
  rw [fraction?_none ends]
  dsimp only [Option.bind_eq_bind, Option.bind_some]
  rw [exponent?_none ends]
  rfl

/-- A lexeme that begins with a digit is a number. -/
theorem lexeme?_digit (digit : c.isDigit = true) :
    lexeme? c text = (numeral? false (c :: text)).map fun (numeral, rest) =>
      (.number numeral, rest) := by
  unfold lexeme?
  split
  iterate 11
    · exact absurd digit (by decide)
  · rfl

theorem toList_toString_int (value : Int) :
    (toString value).toList = (if value < 0 then ['-'] else []) ++
      Nat.toDigits 10 value.natAbs := by
  rw [Int.toString_eq_repr, Int.repr_eq_if]
  split
  · next positive =>
    rw [if_neg (Int.not_lt.mpr positive), Nat.toList_repr, ← Int.natAbs_of_nonneg positive]
    rfl
  · next negative =>
    have size : (-value).toNat = value.natAbs := by omega
    rw [if_pos (Int.not_le.mp negative), String.toList_append, Nat.toList_repr, size]
    rfl

/-- **A written integer is read as its numeral.** -/
theorem lexemes_integer (value : Int) (ends : EndsNumber rest) :
    lexemes ((toString value).toList ++ rest) = .number (.ofInt value) :: lexemes rest := by
  rw [toList_toString_int, Numeral.ofInt]
  by_cases negative : value < 0
  · rw [if_pos negative, decide_eq_true negative, List.append_assoc, List.singleton_append]
    refine lexemes_cons rfl ?_
    rw [lexeme?, numeral?_toDigits true _ ends]
    rfl
  · rw [if_neg negative, decide_eq_false negative, List.nil_append]
    have numeral := numeral?_toDigits false value.natAbs ends
    obtain ⟨c, more, digits⟩ := List.exists_cons_of_ne_nil (@Nat.toDigits_ne_nil value.natAbs 10)
    have digit : c.isDigit = true := Text.isDigit_of_mem_toDigits (digits ▸ List.mem_cons_self ..)
    have visible : isSeparator c = false := by
      by_contra separates
      simp only [isSeparator, Bool.not_eq_false, Bool.or_eq_true, beq_iff_eq] at separates
      rcases separates with ((rfl | rfl) | rfl) | rfl <;> exact absurd digit (by decide)
    rw [digits, List.cons_append] at numeral ⊢
    refine lexemes_cons visible ?_
    rw [lexeme?_digit digit, numeral]
    rfl

theorem Numeral.ofInt_inj {value other : Int} (same : Numeral.ofInt value = .ofInt other) :
    value = other := by
  have sign : decide (value < 0) = decide (other < 0) := congrArg Numeral.negative same
  have size : value.natAbs = other.natAbs := by
    have digits := congrArg (fun numeral => Text.digitsValue numeral.whole) same
    simpa only [Numeral.ofInt, Text.digitsValue_toDigits] using digits
  rw [decide_eq_decide] at sign
  omega

/-- An integer is known by its canonical form. -/
theorem toString_int_inj {value other : Int} (same : toString value = toString other) :
    value = other := by
  have alone : ∀ value : Int, lexemes ((toString value).toList ++ []) =
      .number (.ofInt value) :: lexemes [] :=
    fun value => lexemes_integer value nofun
  have lexeme := (alone value).symm.trans (same ▸ alone other)
  exact Numeral.ofInt_inj (Lexeme.number.inj (List.cons.inj lexeme).1)

/-- **The number of an integer of 64 bits is the integer**, with or without a sign. -/
theorem Numeral.number?_ofInt {value : Int} (least : minSigned ≤ value)
    (most : value ≤ maxUnsigned) :
    (Numeral.ofInt value).number? = some (.integer value) := by
  have exact_ : (Numeral.ofInt value).integer? = some value := by
    simp only [minSigned, maxUnsigned] at least most
    simp only [integer?, ofInt, List.isEmpty_nil, Option.isNone_none, Bool.and_self, if_true,
      Text.digitsValue_toDigits, decide_eq_true_eq, minSigned, maxUnsigned]
    split
    · next negative =>
      rw [if_neg (by omega)]
      congr 1
      omega
    · next positive =>
      rw [if_pos (by omega)]
      congr 1
      omega
  rw [number?, exact_]

end EntityQuery.Json

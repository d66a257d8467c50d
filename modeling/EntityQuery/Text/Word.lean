/-!
# Words and lists of words

Text operations that the other modules share: splitting at a separator character, comparison that
ignores the case of ASCII letters, and the size of a text in octets of UTF-8. Joining undoes
splitting (`joinChars_splitChars`), and the octets of two texts add up (`octets_append`).
-/

set_option autoImplicit false

namespace EntityQuery.Text

/-- The pieces of a text between the occurrences of the separator; there is always at least one. -/
def splitChars (separator : Char) : List Char → List (List Char)
  | [] => [[]]
  | c :: rest =>
    if c = separator then [] :: splitChars separator rest
    else match splitChars separator rest with
      | [] => [[c]]
      | piece :: pieces => (c :: piece) :: pieces

/-- The pieces one after another with the separator between neighbours. -/
def joinChars (separator : Char) : List (List Char) → List Char
  | [] => []
  | [piece] => piece
  | piece :: next :: rest => piece ++ separator :: joinChars separator (next :: rest)

theorem splitChars_ne_nil (separator : Char) (text : List Char) :
    splitChars separator text ≠ [] := by
  cases text with
  | nil => simp [splitChars]
  | cons c rest =>
    unfold splitChars
    split
    · simp
    · split <;> simp

/-- Joining the pieces again gives the text. -/
theorem joinChars_splitChars (separator : Char) (text : List Char) :
    joinChars separator (splitChars separator text) = text := by
  induction text with
  | nil => rfl
  | cons c rest ih =>
    unfold splitChars
    split
    · next same =>
      subst same
      cases pieces : splitChars c rest with
      | nil => exact absurd pieces (splitChars_ne_nil c rest)
      | cons piece more => rw [pieces] at ih; simp [joinChars, ih]
    · cases pieces : splitChars separator rest with
      | nil => exact absurd pieces (splitChars_ne_nil separator rest)
      | cons piece more =>
        rw [pieces] at ih
        cases more with
        | nil => simpa [joinChars] using ih
        | cons next rest => simpa [joinChars] using ih

/-- The pieces of a text between the occurrences of the separator, as texts. -/
def splitAtChar (separator : Char) (text : String) : List String :=
  (splitChars separator text.toList).map String.ofList

/-- The text with ASCII capitals made small and all else unchanged. -/
def lowerAscii (text : String) : String :=
  String.ofList (text.toList.map Char.toLower)

/-- Equality up to the case of ASCII letters. -/
def sameIgnoringCase (text other : String) : Bool :=
  text.toList.map Char.toLower == other.toList.map Char.toLower

/-- The number of octets of a text in UTF-8. -/
def octets : List Char → Nat
  | [] => 0
  | c :: rest => c.utf8Size + octets rest

/-- The octets of two texts add up. -/
theorem octets_append (text more : List Char) :
    octets (text ++ more) = octets text + octets more := by
  induction text with
  | nil => simp [octets]
  | cons c rest ih => rw [List.cons_append, octets, octets, ih, Nat.add_assoc]

/-- A text without octets is empty. -/
theorem octets_eq_zero_iff {text : List Char} : octets text = 0 ↔ text = [] := by
  cases text with
  | nil => simp [octets]
  | cons c rest =>
    have positive := c.utf8Size_pos
    simp only [octets, reduceCtorEq, iff_false]
    omega

end EntityQuery.Text

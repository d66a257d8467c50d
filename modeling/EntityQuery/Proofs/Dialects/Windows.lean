import EntityQuery.Proofs.Text.Digits
import EntityQuery.Sql.Dialect
import Mathlib.Data.List.Infix

/-!
# Windows of rows

What is put behind a statement to choose a window of its rows is text in the syntax of a dialect,
and the dialects write the same choice in different ways: one has words for both bounds, the other
two numbers in one order or one number alone. `Dialect.readWindow?` reads such a text by the syntax
of its dialect, and `Window.choose` is the choice that a window makes among the rows of a result.

What a dialect writes is read as the bounds that it tells apart (`readWindow?_window`), so two
choices are written alike only if these bounds are the same (`window_eq_iff`). In every result that
a database can count, they choose the rows that were asked for (`choose_bounds`). The main statement
is `paginate_chooses`.
-/

set_option autoImplicit false

namespace EntityQuery.Sql

/-! ## Choices of rows -/

/-- A choice of rows: some at the beginning are left out, and of the others at most so many are
taken. -/
structure Window where
  skipped : Nat
  taken? : Option Nat
  deriving DecidableEq, Repr

/-- The rows that a window chooses. -/
def Window.choose {α : Type} (window : Window) (rows : List α) : List α :=
  match window.taken? with
  | none => rows.drop window.skipped
  | some taken => (rows.drop window.skipped).take taken

/-- The rows that are asked for: those from `start` on, and at most `limit` of them. A zero is no
bound. -/
def askedRows {α : Type} (start? limit? : Option UInt64) (rows : List α) : List α :=
  let behind := match start? with
    | none => rows
    | some start => rows.drop start.toNat
  match limit? with
  | none | some 0 => behind
  | some limit => behind.take limit.toNat

/-! ## The syntax of dialects -/

/-- A number that a text begins with, and the text behind it. -/
def number? (text : List Char) : Option (Nat × List Char) :=
  match text.takeWhile Char.isDigit with
  | [] => none
  | digits => some (Text.digitsValue digits, text.dropWhile Char.isDigit)

/-- The number that a text is. -/
def wholeNumber? (text : List Char) : Option Nat :=
  match number? text with
  | some (value, []) => some value
  | _ => none

namespace Dialect

/-- The window of a first number and what follows it: in PostgreSQL the number of rows, perhaps
before a start, in MySQL the number of rows, or a start before a comma and the number of rows. -/
def readLimit? (dialect : Dialect) (first : Nat) (rest : List Char) : Option Window :=
  if rest.isEmpty then some ⟨0, some first⟩
  else
    match dialect with
    | .postgres => do
      let start ← wholeNumber? (← rest.dropPrefix? " OFFSET ".toList)
      return ⟨start, some first⟩
    | .mysql => do
      let limit ← wholeNumber? (← rest.dropPrefix? ",".toList)
      return ⟨first, some limit⟩

/-- The window that a text behind a statement stands for in a dialect. -/
def readWindow? (dialect : Dialect) (text : List Char) : Option Window :=
  if text.isEmpty then some ⟨0, none⟩
  else
    match text.dropPrefix? " LIMIT ".toList, dialect with
    | some behind, _ => do
      let (first, rest) ← number? behind
      dialect.readLimit? first rest
    | none, .postgres => do
      let start ← wholeNumber? (← text.dropPrefix? " OFFSET ".toList)
      return ⟨start, none⟩
    | none, .mysql => none

/-- The bounds that a dialect tells apart. A zero is no bound, and MySQL has no start without a
number of rows, which is the largest if there is none. -/
def bounds (dialect : Dialect) (start? limit? : Option UInt64) : Option UInt64 × Option UInt64 :=
  match dialect, bound? start?, bound? limit? with
  | .mysql, some start, none => (some start, some allRows)
  | _, start?, limit? => (start?, limit?)

end Dialect

/-- The window of bounds. -/
def Window.ofBounds (bounds : Option UInt64 × Option UInt64) : Window where
  skipped := (bounds.1.map UInt64.toNat).getD 0
  taken? := bounds.2.map UInt64.toNat

/-! ## Numbers in a text -/

variable {rest : List Char} {start? limit? otherStart? otherLimit? : Option UInt64}

theorem number?_rowsText (rows : UInt64) (ends : ∀ c ∈ rest.head?, c.isDigit = false) :
    number? ((Dialect.rowsText rows).toList ++ rest) = some (rows.toNat, rest) := by
  obtain ⟨digits, behind⟩ := Text.takeWhile_toDigits rows.toNat ends
  rw [Dialect.rowsText, Text.toList_toString, number?, digits, behind]
  split
  · next none_ => exact absurd none_ Nat.toDigits_ne_nil
  · rw [Text.digitsValue_toDigits]

theorem wholeNumber?_rowsText (rows : UInt64) :
    wholeNumber? (Dialect.rowsText rows).toList = some rows.toNat := by
  have whole := @number?_rowsText [] rows nofun
  rw [List.append_nil] at whole
  rw [wholeNumber?, whole]

theorem dropPrefix?_append (word rest : List Char) : (word ++ rest).dropPrefix? word = some rest :=
  List.dropPrefix?_eq_some_iff.mpr ⟨word, rfl, beq_self_eq_true word⟩

/-! ## What a dialect writes is read -/

namespace Dialect

/-- A text with a first number is read as what follows the number says. -/
theorem readWindow?_limit (dialect : Dialect) (first : UInt64) (rest : List Char)
    (ends : ∀ c ∈ rest.head?, c.isDigit = false) :
    dialect.readWindow? (" LIMIT ".toList ++ ((rowsText first).toList ++ rest)) =
      dialect.readLimit? first.toNat rest := by
  rw [readWindow?.eq_def, if_neg (by simp), dropPrefix?_append]
  simp only [number?_rowsText first ends, Option.bind_eq_bind, Option.bind_some]

/-- A text with a start alone. -/
theorem readWindow?_offset (start : UInt64) :
    Dialect.postgres.readWindow? (" OFFSET ".toList ++ (rowsText start).toList) =
      some ⟨start.toNat, none⟩ := by
  have noLimit : (" OFFSET ".toList ++ (rowsText start).toList).dropPrefix? " LIMIT ".toList =
      none := rfl
  rw [readWindow?.eq_def, if_neg (by simp), noLimit]
  simp only [dropPrefix?_append, wholeNumber?_rowsText, Option.bind_eq_bind, Option.bind_some,
    Option.pure_def]

theorem readLimit?_offset (limit start : UInt64) :
    Dialect.postgres.readLimit? limit.toNat (" OFFSET ".toList ++ (rowsText start).toList) =
      some ⟨start.toNat, some limit.toNat⟩ := by
  rw [readLimit?.eq_def, if_neg (by simp)]
  simp only [dropPrefix?_append, wholeNumber?_rowsText, Option.bind_eq_bind, Option.bind_some,
    Option.pure_def]

theorem readLimit?_comma (start limit : UInt64) :
    Dialect.mysql.readLimit? start.toNat (",".toList ++ (rowsText limit).toList) =
      some ⟨start.toNat, some limit.toNat⟩ := by
  rw [readLimit?.eq_def, if_neg (by simp)]
  simp only [dropPrefix?_append, wholeNumber?_rowsText, Option.bind_eq_bind, Option.bind_some,
    Option.pure_def]

/-- **What a dialect writes is read as the bounds that it tells apart.** -/
theorem readWindow?_window (dialect : Dialect) (start? limit? : Option UInt64) :
    dialect.readWindow? (dialect.window start? limit?).toList =
      some (.ofBounds (dialect.bounds start? limit?)) := by
  unfold window bounds
  cases bound? start? with
  | none =>
      cases bound? limit? with
      | none => cases dialect <;> rfl
      | some limit =>
          have read := readWindow?_limit dialect limit [] nofun
          rw [List.append_nil, ← String.toList_append] at read
          cases dialect <;> exact read
  | some start =>
      cases dialect with
      | postgres =>
          cases bound? limit? with
          | none => exact String.toList_append ▸ readWindow?_offset start
          | some limit =>
              have read :=
                readWindow?_limit .postgres limit
                  (" OFFSET ".toList ++ (rowsText start).toList) (by simp)
              rw [readLimit?_offset] at read
              simp only [String.toList_append, List.append_assoc]
              exact read
      | mysql =>
          have read : ∀ rows, Dialect.mysql.readWindow?
              (" LIMIT " ++ rowsText start ++ "," ++ rowsText rows).toList =
                some ⟨start.toNat, some rows.toNat⟩ := by
            intro rows
            have both :=
              readWindow?_limit .mysql start (",".toList ++ (rowsText rows).toList) (by simp)
            rw [readLimit?_comma] at both
            simp only [String.toList_append, List.append_assoc]
            exact both
          cases bound? limit? with
          | none => exact read allRows
          | some limit => exact read limit

/-! ## Bounds -/

theorem bound?_ne_zero (rows? : Option UInt64) : bound? rows? ≠ some 0 := by
  intro bound
  simpa using (Option.filter_eq_some_iff.mp bound).2

@[simp] theorem bound?_bound? (rows? : Option UInt64) : bound? (bound? rows?) = bound? rows? := by
  simp [bound?, Option.filter_filter]

theorem start_bounds (dialect : Dialect) (start? limit? : Option UInt64) :
    (dialect.bounds start? limit?).1 = bound? start? := by
  unfold bounds
  split
  · next start _ => exact start.symm
  · rfl

/-- A dialect writes the bounds that it tells apart. -/
theorem window_bounds (dialect : Dialect) (start? limit? : Option UInt64) :
    dialect.window (dialect.bounds start? limit?).1 (dialect.bounds start? limit?).2 =
      dialect.window start? limit? := by
  have start := bound?_bound? start?
  have limit := bound?_bound? limit?
  have largest : bound? (some allRows) = some allRows := rfl
  unfold window bounds
  cases startBound : bound? start? <;> rw [startBound] at start <;>
    cases limitBound : bound? limit? <;> rw [limitBound] at limit <;>
    cases dialect <;> simp only [start, limit, largest, Option.getD_none, Option.getD_some]

end Dialect

/-- Bounds of which the first is not zero are known by their window. -/
theorem Window.ofBounds_inj {bounds others : Option UInt64 × Option UInt64}
    (positive : bounds.1 ≠ some 0) (otherPositive : others.1 ≠ some 0) :
    Window.ofBounds bounds = .ofBounds others ↔ bounds = others := by
  refine ⟨fun same => ?_, fun same => same ▸ rfl⟩
  obtain ⟨skipped, taken⟩ := Window.mk.inj same
  have taken : bounds.2 = others.2 :=
    Option.map_injective (fun _ _ => UInt64.toNat_inj.mp) taken
  have skipped : bounds.1 = others.1 := by
    cases first : bounds.1 <;> cases second : others.1 <;> simp_all [← UInt64.toNat_inj]
  exact Prod.ext skipped taken

namespace Dialect

/-- **A dialect writes two choices alike only if the bounds that it tells apart are the same.** -/
theorem window_eq_iff (dialect : Dialect) :
    dialect.window start? limit? = dialect.window otherStart? otherLimit? ↔
      dialect.bounds start? limit? = dialect.bounds otherStart? otherLimit? := by
  constructor
  · intro same
    have read := readWindow?_window dialect start? limit?
    rw [same, readWindow?_window] at read
    refine ((Window.ofBounds_inj ?_ ?_).mp (Option.some.inj read)).symm <;>
      exact start_bounds dialect _ _ ▸ bound?_ne_zero _
  · intro same
    rw [← window_bounds, same, window_bounds]

/-! ## The rows that are chosen -/

/-- The rows that are asked for are those of the bounds that are not zero. -/
theorem choose_asked {α : Type} (start? limit? : Option UInt64) (rows : List α) :
    (Window.ofBounds (bound? start?, bound? limit?)).choose rows =
      askedRows start? limit? rows := by
  have behind : rows.drop (((bound? start?).map UInt64.toNat).getD 0) =
      match start? with
      | none => rows
      | some start => rows.drop start.toNat := by
    cases start? with
    | none => rfl
    | some start => by_cases zero : start = 0 <;> simp [bound?, Option.filter, zero]
  unfold Window.choose Window.ofBounds askedRows
  rw [behind]
  cases limit? with
  | none => rfl
  | some limit => by_cases zero : limit = 0 <;> simp [bound?, Option.filter, zero]

/-- **The bounds of a dialect choose the rows that are asked for** among as many as can be counted.
-/
theorem choose_bounds {α : Type} (dialect : Dialect) (start? limit? : Option UInt64) {rows : List α}
    (countable : rows.length < UInt64.size) :
    (Window.ofBounds (dialect.bounds start? limit?)).choose rows =
      askedRows start? limit? rows := by
  rw [← choose_asked]
  unfold bounds
  split
  · next start limit =>
    rw [start, limit]
    refine List.take_of_length_le ?_
    rw [List.length_drop]
    exact (Nat.sub_le ..).trans (Nat.le_of_lt_succ countable)
  · rfl

/-- **Both dialects choose the same rows.** For every start and limit, what a dialect puts behind a
statement is one text for all statements, and the window that it reads in it chooses from every
result of at most `2 ^ 64 - 1` rows those that are asked for. PostgreSQL writes two choices alike if
and only if they are the same once zeros are left out, and MySQL if they also are once a start
without a limit has the largest. -/
theorem paginate_chooses (start? limit? : Option UInt64) :
    (∀ (dialect : Dialect) (statement : String),
      dialect.paginate statement start? limit? = statement ++ dialect.window start? limit?) ∧
    (∀ dialect : Dialect, ∃ window, dialect.readWindow? (dialect.window start? limit?).toList =
      some window ∧
      ∀ (α : Type) (rows : List α), rows.length < UInt64.size →
        window.choose rows = askedRows start? limit? rows) ∧
    ∀ otherStart? otherLimit? : Option UInt64,
      (Dialect.postgres.window start? limit? = Dialect.postgres.window otherStart? otherLimit? ↔
        bound? start? = bound? otherStart? ∧ bound? limit? = bound? otherLimit?) ∧
      (Dialect.mysql.window start? limit? = Dialect.mysql.window otherStart? otherLimit? ↔
        Dialect.mysql.bounds start? limit? = Dialect.mysql.bounds otherStart? otherLimit?) := by
  refine ⟨fun dialect statement => rfl, fun dialect => ?_, fun otherStart? otherLimit? => ⟨?_, ?_⟩⟩
  · exact ⟨_, readWindow?_window dialect start? limit?,
      fun α rows => choose_bounds dialect start? limit?⟩
  · rw [window_eq_iff]
    exact Prod.ext_iff
  · exact window_eq_iff .mysql

/-- In MySQL a start without a limit has the largest number of rows for one, which leaves out none
of three. -/
theorem paginate_chooses_largest :
    Dialect.mysql.paginate "select 1" (some 1) none = "select 1 LIMIT 1,18446744073709551615" ∧
      ["a", "b", "c"].length < UInt64.size ∧
      ∃ window, Dialect.mysql.readWindow? (Dialect.mysql.window (some 1) none).toList =
        some window ∧
        window.choose ["a", "b", "c"] = ["b", "c"] := by
  obtain ⟨-, chooses, -⟩ := paginate_chooses (some 1) none
  obtain ⟨window, reads, chosen⟩ := chooses .mysql
  have countable : ["a", "b", "c"].length < UInt64.size := by decide
  exact ⟨by decide, countable, window, reads, chosen String ["a", "b", "c"] countable⟩

end Dialect

end EntityQuery.Sql

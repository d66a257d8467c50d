import EntityQuery.Proofs.Clauses.Layout
import EntityQuery.Proofs.Tokens.Literals

/-!
# Clauses split and glued together

A query is split if and only if its normal form has a layout that is sound, and its clauses are
those of the layout. As keywords are looked for in small letters, the layout stays sound with its
keywords in small letters (`Layout.Sound.small`), and its text stays in normal form
(`Normal.of_same`). That text is what the clauses are glued together to (`Layout.glued_clauses`), so
they are found again in it (`splitClauses_exact`).

The small letters have as many octets before each of their places as the text itself
(`octets_take_lowered`), and a keyword that is found ends in the text or with the space behind it
(`findKeyword?_inside`).
-/

set_option autoImplicit false

namespace EntityQuery

namespace Text

variable {c : Char}

/-- No letter of ASCII is blank. -/
theorem isBlank_of_isAlpha (letter : c.isAlpha = true) : isBlank c = false := by
  rw [Bool.eq_false_iff]
  intro blank
  simp only [isBlank, Bool.or_eq_true, Bool.and_eq_true, decide_eq_true_eq, beq_iff_eq] at blank
  have code : c.val.toNat = c.toNat := rfl
  rcases (Bool.or_eq_true _ _).mp letter with capital | small
  · have bounds := isUpper_iff.mp capital
    omega
  · have bounds := isLower_iff.mp small
    omega

theorem isBlank_toLower (c : Char) : isBlank c.toLower = isBlank c := by
  rcases toLower_cases c with same | ⟨capital, small⟩
  · rw [same]
  · rw [isBlank_of_isAlpha (isAlpha_of_isUpper capital),
      isBlank_of_isAlpha (isAlpha_of_isLower small)]

theorem utf8Size_toLower (c : Char) : c.toLower.utf8Size = c.utf8Size := by
  rcases toLower_cases c with same | ⟨capital, small⟩
  · rw [same]
  · have single : ∀ {d : Char}, d.val.toNat ≤ 122 → d.utf8Size = 1 := by
      intro d bound
      rw [Char.utf8Size_eq_one_iff, UInt32.le_iff_toNat_le]
      exact Nat.le_trans bound (by decide)
    have least := isUpper_iff.mp capital
    rw [single (isLower_iff.mp small).2, single (by omega)]

theorem octets_map_toLower (text : List Char) : octets (text.map Char.toLower) = octets text := by
  induction text with
  | nil => rfl
  | cons c rest ih => rw [List.map_cons, octets, octets, utf8Size_toLower, ih]

end Text

namespace Query

open Text (isBlank octets)

variable {text other more others : List Char}

/-! ## Places of the text and of its small letters -/

/-- A place has as many octets before it in the small letters as in the text. -/
theorem octets_take_lowered {place : Nat} (inside : place ≤ text.length) :
    octets ((lowered text).take place) = octets (text.take place) := by
  have bound : place ≤ (text.map Char.toLower).length := by rwa [List.length_map]
  rw [lowered, List.take_append_of_le_length bound, ← List.map_take, Text.octets_map_toLower]

/-- What is found is at a place of the text. -/
theorem findKeywordFrom?_inside {keyword : List Char} {from_ place found : Nat}
    {open_ : Option Char} (isFound : findKeywordFrom? keyword from_ open_ place text = some found) :
    found + keyword.length ≤ place + text.length := by
  induction text generalizing open_ place with
  | nil => cases open_ <;> cases isFound
  | cons c rest ih =>
      have later : ∀ {open_ : Option Char},
          findKeywordFrom? keyword from_ open_ (place + 1) rest = some found →
          found + keyword.length ≤ place + (c :: rest).length := by
        intro open_ isFound
        have inside := ih isFound
        rw [List.length_cons]
        omega
      cases open_ with
      | some quote => exact later isFound
      | none =>
          rw [findKeywordFrom?] at isFound
          split at isFound
          · next here =>
            cases isFound
            have fits := (List.isPrefixOf_iff_prefix.mp here.2.2).length_le
            omega
          · exact later isFound

/-- A keyword that is found ends in the text, or with the space behind it. -/
theorem findKeyword?_inside {keyword : String} {from_ place : Nat}
    (isFound : findKeyword? keyword from_ (lowered text) = some place) :
    place + keyword.length ≤ text.length + 1 := by
  have inside := findKeywordFrom?_inside isFound
  rw [lowered, List.length_append, List.length_map, List.length_singleton, Nat.zero_add,
    String.length_toList] at inside
  exact inside

/-! ## Texts in other case -/

theorem same_append (first : text.map Char.toLower = other.map Char.toLower)
    (second : more.map Char.toLower = others.map Char.toLower) :
    (text ++ more).map Char.toLower = (other ++ others).map Char.toLower := by
  rw [List.map_append, List.map_append, first, second]

theorem afterText_of_same (same : text.map Char.toLower = other.map Char.toLower) :
    afterText none other = afterText none text := by
  rw [← afterText_map_toLower isQuote_of_none, ← same, afterText_map_toLower isQuote_of_none]

/-- **Whether a text is in normal form does not depend on the case of its letters.** -/
theorem Normal.of_same {gap : Gap} {open_ : Option Char} (normal : Normal gap open_ text)
    (marks : ∀ mark ∈ open_, isQuote mark = true)
    (same : text.map Char.toLower = other.map Char.toLower) : Normal gap open_ other := by
  have opens : ∀ {open_ : Option Char} {c d : Char}, (∀ mark ∈ open_, isQuote mark = true) →
      d.toLower = c.toLower → afterChar open_ d = afterChar open_ c := by
    intro open_ c d marks lower
    rw [← afterChar_toLower marks d, lower, afterChar_toLower marks]
  induction normal generalizing other with
  | nil settled =>
      obtain rfl := List.map_eq_nil_iff.mp same.symm
      exact .nil settled
  | @inside quote c rest _ ih =>
      obtain ⟨d, others, rfl, lower, remaining⟩ := List.map_eq_cons_iff.mp same.symm
      refine .inside ?_
      rw [opens marks lower]
      exact ih (isQuote_of_afterChar marks c) remaining.symm
  | @space rest _ ih =>
      obtain ⟨d, others, rfl, lower, remaining⟩ := List.map_eq_cons_iff.mp same.symm
      obtain rfl := (Text.toLower_eq_iff (by decide)).mp lower
      exact .space (ih marks remaining.symm)
  | @char gap c rest notBlank _ ih =>
      obtain ⟨d, others, rfl, lower, remaining⟩ := List.map_eq_cons_iff.mp same.symm
      refine .char ?_ ?_
      · rw [← Text.isBlank_toLower, lower, Text.isBlank_toLower, notBlank]
      · rw [opens marks lower]
        exact ih (isQuote_of_afterChar marks c) remaining.symm

/-- **Whether a text is free of a keyword does not depend on the case of its letters.** -/
theorem Free.of_same {keyword : List Char} (free : Free keyword none text more)
    (same : text.map Char.toLower = other.map Char.toLower)
    (sameMore : more.map Char.toLower = others.map Char.toLower) :
    Free keyword none other others := by
  rintro before after rfl notEmpty outside here
  rw [List.map_append] at same
  obtain ⟨front, back, rfl, sameFront, sameBack⟩ := List.map_eq_append_iff.mp same
  refine free front back rfl ?_ ?_ ?_
  · rintro rfl
    exact notEmpty (List.map_eq_nil_iff.mp sameBack.symm)
  · rw [← afterText_of_same sameFront, outside]
  · rw [lowered, List.map_append, sameBack, sameMore, ← List.map_append]
    exact here

/-! ## Keywords in small letters -/

/-- The phrase of a clause with its keyword in small letters. -/
def Phrase.small (clause : Clause) (phrase : Phrase) : Phrase :=
  { phrase with keyword := clause.opening }

theorem Clause.opening_map_toLower (clause : Clause) :
    clause.opening.map Char.toLower = clause.opening := by
  cases clause <;> decide

namespace Phrase.Sound

variable {phrase : Phrase} {clause : Clause}

theorem small (sound : phrase.Sound clause) : (phrase.small clause).Sound clause :=
  ⟨clause.opening_map_toLower, sound.notEmpty, sound.closed⟩

theorem same_written (sound : phrase.Sound clause) :
    phrase.written.map Char.toLower = (phrase.small clause).written.map Char.toLower := by
  rw [written, written, List.map_append, List.map_append, sound.spelling]
  exact congrArg (· ++ _) clause.opening_map_toLower.symm

end Phrase.Sound

theorem same_written? {phrase? : Option Phrase} {clause : Clause}
    (sound : ∀ phrase ∈ phrase?, phrase.Sound clause) :
    (written? phrase?).map Char.toLower =
      (written? (phrase?.map (Phrase.small clause))).map Char.toLower := by
  cases phrase? with
  | none => rfl
  | some phrase => exact (sound phrase rfl).same_written

/-- What the clauses are glued together to. -/
def Clauses.glued (clauses : Clauses) : String :=
  "select " ++ clauses.select ++ " from " ++ clauses.table ++
    (clauses.filter?.elim "" fun text => " where " ++ text) ++
    clauses.order?.elim "" fun text => " order by " ++ text

/-- The texts of all clauses that are there. -/
def Clauses.parts (clauses : Clauses) : List String :=
  clauses.select :: clauses.table :: (clauses.filter?.toList ++ clauses.order?.toList)

namespace Layout

/-- The layout with its keywords in small letters. -/
def small (layout : Layout) : Layout where
  select := layout.select.small .select
  table := layout.table.small .table
  filter? := layout.filter?.map (Phrase.small .filter)
  order? := layout.order?.map (Phrase.small .order)

/-- The clauses of a layout are glued together to its text in small letters. -/
theorem glued_clauses (layout : Layout) :
    layout.clauses.glued = String.ofList layout.small.text := by
  obtain ⟨select, table, filter?, order?⟩ := layout
  apply String.toList_inj.mp
  cases filter? <;> cases order? <;>
    simp [Clauses.glued, clauses, small, text, Phrase.small, Phrase.written, written?,
      Clause.opening, Clause.word, Clause.keyword]

theorem clauses_small (layout : Layout) : layout.small.clauses = layout.clauses := by
  obtain ⟨select, table, filter?, order?⟩ := layout
  cases filter? <;> cases order? <;> rfl

namespace Sound

variable {layout : Layout}

theorem same_others (sound : layout.Sound) :
    (written? layout.filter? ++ written? layout.order?).map Char.toLower =
      (written? layout.small.filter? ++ written? layout.small.order?).map Char.toLower :=
  same_append (same_written? sound.filter) (same_written? sound.order)

theorem same_table (sound : layout.Sound) :
    (layout.table.written ++ (written? layout.filter? ++ written? layout.order?)).map Char.toLower =
      (layout.small.table.written ++
        (written? layout.small.filter? ++ written? layout.small.order?)).map Char.toLower :=
  same_append sound.table.same_written sound.same_others

/-- Only the case of letters differs. -/
theorem same_text (sound : layout.Sound) :
    layout.text.map Char.toLower = layout.small.text.map Char.toLower :=
  same_append sound.select.same_written sound.same_table

/-- **A layout stays sound with its keywords in small letters.** -/
theorem small (sound : layout.Sound) : layout.small.Sound where
  select := sound.select.small
  table := sound.table.small
  filter := by
    intro _ present
    obtain ⟨phrase, old, rfl⟩ := Option.map_eq_some_iff.mp present
    exact (sound.filter phrase old).small
  order := by
    intro _ present
    obtain ⟨phrase, old, rfl⟩ := Option.map_eq_some_iff.mp present
    exact (sound.order phrase old).small
  tableFirst := sound.tableFirst.of_same sound.select.same_written sound.same_table
  filterFirst := by
    intro _ present
    obtain ⟨phrase, old, rfl⟩ := Option.map_eq_some_iff.mp present
    exact (sound.filterFirst phrase old).of_same sound.table.same_written
      (same_append (sound.filter phrase old).same_written (same_written? sound.order))
  filterAbsent := by
    intro absent
    exact (sound.filterAbsent (Option.map_eq_none_iff.mp absent)).of_same
      (same_append sound.table.same_written (same_written? sound.order)) rfl
  orderFirst := by
    refine sound.orderFirst.of_same ?_ (same_written? sound.order)
    rw [Layout.small]
    cases present : layout.filter? with
    | none => exact sound.table.same_written
    | some phrase => exact (sound.filter phrase present).same_written

/-- The text of every clause closes its literals. -/
theorem parts_closed (sound : layout.Sound) :
    ∀ part ∈ layout.clauses.parts, afterText none part.toList = none := by
  have optional : ∀ {phrase? : Option Phrase} {clause : Clause},
      (∀ phrase ∈ phrase?, phrase.Sound clause) →
      ∀ part ∈ (phrase?.map fun phrase => String.ofList phrase.text),
        afterText none part.toList = none := by
    intro phrase? clause soundToo part present
    obtain ⟨phrase, old, rfl⟩ := Option.map_eq_some_iff.mp present
    rw [String.toList_ofList]
    exact (soundToo phrase old).closed
  intro part member
  rw [Clauses.parts, List.mem_cons, List.mem_cons, List.mem_append, Option.mem_toList,
    Option.mem_toList] at member
  rcases member with rfl | rfl | filter | order
  · rw [clauses, String.toList_ofList]
    exact sound.select.closed
  · rw [clauses, String.toList_ofList]
    exact sound.table.closed
  · exact optional sound.filter part filter
  · exact optional sound.order part order

/-- **The clauses of a layout are found again in what they are glued together to.** -/
theorem splitClauses_glued (sound : layout.Sound) (normal : Normal .start none layout.text)
    (closed : afterText none layout.text = none) :
    splitClauses layout.clauses.glued = .ok layout.clauses := by
  have normalToo := normal.of_same isQuote_of_none sound.same_text
  have closedToo := (afterText_of_same sound.same_text).trans closed
  rw [glued_clauses]
  refine bind_ok (normalize_of_normal normalToo closedToo) ?_
  rw [String.toList_ofList, sound.small.splitNormal_layout normalToo, clauses_small]

end Sound

end Layout

/-! ## What a query is split into -/

/-- A text in normal form is split into the clauses of its layouts that are sound. -/
theorem splitNormal_eq_ok_iff {clauses : Clauses} (normal : Normal .start none text)
    (closed : afterText none text = none) :
    splitNormal text = .ok clauses ↔
      ∃ layout : Layout, layout.Sound ∧ layout.text = text ∧ layout.clauses = clauses := by
  constructor
  · intro succeeds
    obtain ⟨layout, sound, rfl⟩ := exists_layout closed succeeds
    have split := sound.splitNormal_layout normal
    exact ⟨layout, sound, rfl, Except.ok.inj (split.symm.trans succeeds)⟩
  · rintro ⟨layout, sound, rfl, rfl⟩
    exact sound.splitNormal_layout normal

/-- **A query is split into its clauses and nothing is lost.** It is refused if it has no normal
form. If it has one, it is split into the clauses of the layout of its normal form, and refused if
there is none that is sound; keywords are found at places of the normal form. The clauses that it is
split into are found again in what they are glued together to, and each of them has tokens. -/
theorem splitClauses_exact (query : String) :
    (∀ problem, normalize query = .error problem → splitClauses query = .error problem) ∧
    (∀ normal, normalize query = .ok normal →
      (∀ clauses, splitClauses query = .ok clauses ↔
        ∃ layout : Layout, layout.Sound ∧ layout.text = normal.toList ∧ layout.clauses = clauses) ∧
      (∀ keyword from_ place, findKeyword? keyword from_ (lowered normal.toList) = some place →
        place + keyword.length ≤ normal.toList.length + 1) ∧
      ∀ place ≤ normal.toList.length,
        octets ((lowered normal.toList).take place) = octets (normal.toList.take place)) ∧
    ∀ clauses, splitClauses query = .ok clauses →
      splitClauses clauses.glued = .ok clauses ∧
        ∀ part ∈ clauses.parts, ∀ marks, ∃ tokens, tokenize marks part = .ok tokens := by
  refine ⟨fun problem fails => ?_, fun normal succeeds => ?_, fun clauses succeeds => ?_⟩
  · rw [splitClauses, fails]
    rfl
  · obtain ⟨isNormal, closed⟩ := normal_of_normalize succeeds
    refine ⟨fun clauses => ?_, fun keyword from_ place => findKeyword?_inside,
      fun place => octets_take_lowered⟩
    rw [← splitNormal_eq_ok_iff isNormal closed, splitClauses, succeeds]
    rfl
  · obtain ⟨normal, normalized, split⟩ := ok_of_bind succeeds
    obtain ⟨isNormal, closed⟩ := normal_of_normalize normalized
    obtain ⟨layout, sound, whole, rfl⟩ := (splitNormal_eq_ok_iff isNormal closed).mp split
    rw [← whole] at isNormal closed
    refine ⟨sound.splitClauses_glued isNormal closed, fun part member marks => ?_⟩
    exact (exists_tokensFrom_iff marks 0 part.toList).mpr (sound.parts_closed part member)

/-- A query with capital letters and with a keyword in a literal, and a query that leaves its
literal open. -/
theorem splitClauses_exact_shops :
    let normal := "SELECT s.name From Shop s WHERE s.name = ' from ' order BY s.id"
    let clauses : Clauses := ⟨"s.name", "Shop s", some "s.name = ' from '", some "s.id"⟩
    (∃ layout : Layout, layout.Sound ∧ layout.text = normal.toList ∧ layout.clauses = clauses) ∧
      splitClauses "select s.name from Shop s where s.name = ' from ' order by s.id" = .ok clauses ∧
      splitClauses "select 's.name from Shop s" = .error (.unterminatedLiteral 7) := by
  intro normal clauses
  have normalized : normalize "SELECT s.name  From Shop s WHERE s.name = ' from ' order  BY s.id" =
      .ok normal := by decide +kernel
  have split : splitClauses "SELECT s.name  From Shop s WHERE s.name = ' from ' order  BY s.id" =
      .ok clauses := by decide +kernel
  obtain ⟨_, laidOut, glued⟩ :=
    splitClauses_exact "SELECT s.name  From Shop s WHERE s.name = ' from ' order  BY s.id"
  exact ⟨((laidOut normal normalized).1 clauses).mp split, (glued clauses split).1,
    (splitClauses_exact "select 's.name from Shop s").1 _ (by decide +kernel)⟩

end Query

end EntityQuery

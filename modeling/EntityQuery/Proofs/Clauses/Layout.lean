import EntityQuery.Proofs.Clauses.Keywords
import EntityQuery.Proofs.Outcome

/-!
# The layout of a query

A query in normal form is laid out in phrases, each of them the keyword of a clause as it is written
and the text of the clause (`Layout`). A keyword stands at its first place behind the phrases before
it (`Layout.Sound`), where a place in a literal is none (`Free`).

Every query that is split has a layout with its clauses (`exists_layout`), and every layout that is
sound is split into them (`splitNormal_layout`).
-/

set_option autoImplicit false

namespace EntityQuery

namespace Query

open Text (trimBlanks)

/-! ## Phrases -/

/-- The keyword of a clause with a space behind it. -/
def Clause.word (clause : Clause) : List Char :=
  clause.keyword.toList ++ [' ']

/-- What a clause begins with, in small letters. -/
def Clause.opening : Clause → List Char
  | .select => Clause.select.word
  | clause => ' ' :: clause.word

theorem Clause.word_ne_nil (clause : Clause) : clause.word ≠ [] :=
  List.append_ne_nil_of_right_ne_nil _ (List.cons_ne_nil _ _)

theorem afterText_opening (clause : Clause) : afterText none clause.opening = none := by
  cases clause <;> rfl

/-- A clause as it is written: its keyword with the spaces around it, and its text. -/
structure Phrase where
  keyword : List Char
  text : List Char

/-- The whole text of a phrase. -/
def Phrase.written (phrase : Phrase) : List Char :=
  phrase.keyword ++ phrase.text

/-- The whole text of a phrase that may be absent. -/
def written? (phrase? : Option Phrase) : List Char :=
  phrase?.elim [] Phrase.written

/-- The phrase is one of a clause: it has the keyword of the clause and some text, which closes its
literals. -/
structure Phrase.Sound (phrase : Phrase) (clause : Clause) : Prop where
  spelling : phrase.keyword.map Char.toLower = clause.opening
  notEmpty : phrase.text ≠ []
  closed : afterText none phrase.text = none

/-- The phrases of a query. -/
structure Layout where
  select : Phrase
  table : Phrase
  filter? : Option Phrase
  order? : Option Phrase

namespace Layout

/-- The text of the query. -/
def text (layout : Layout) : List Char :=
  layout.select.written ++
    (layout.table.written ++ (written? layout.filter? ++ written? layout.order?))

/-- The texts of its clauses. -/
def clauses (layout : Layout) : Clauses where
  select := String.ofList layout.select.text
  table := String.ofList layout.table.text
  filter? := layout.filter?.map fun phrase => String.ofList phrase.text
  order? := layout.order?.map fun phrase => String.ofList phrase.text

/-- Every phrase is one of its clause, and every keyword is at its first place behind the keyword
before it. -/
structure Sound (layout : Layout) : Prop where
  select : layout.select.Sound .select
  table : layout.table.Sound .table
  filter : ∀ phrase ∈ layout.filter?, phrase.Sound .filter
  order : ∀ phrase ∈ layout.order?, phrase.Sound .order
  tableFirst : Free Clause.table.word none layout.select.written
    (layout.table.written ++ (written? layout.filter? ++ written? layout.order?))
  filterFirst : ∀ phrase ∈ layout.filter?, Free Clause.filter.word none layout.table.written
    (phrase.written ++ written? layout.order?)
  filterAbsent : layout.filter? = none →
    Free Clause.filter.word none (layout.table.written ++ written? layout.order?) []
  orderFirst : Free Clause.order.word none (layout.filter?.getD layout.table).written
    (written? layout.order?)

end Layout

/-- The literals of a text do not depend on its case. -/
theorem afterText_map_toLower {open_ : Option Char} (marks : ∀ mark ∈ open_, isQuote mark = true)
    (text : List Char) : afterText open_ (text.map Char.toLower) = afterText open_ text := by
  induction text generalizing open_ with
  | nil => rfl
  | cons c rest ih =>
      have step : afterText open_ ((c :: rest).map Char.toLower) =
          afterText (afterChar open_ c.toLower) (rest.map Char.toLower) := rfl
      rw [step, afterChar_toLower marks, ih (isQuote_of_afterChar marks c)]
      rfl

namespace Phrase.Sound

variable {phrase : Phrase} {clause : Clause}

theorem keyword_closed (sound : phrase.Sound clause) : afterText none phrase.keyword = none := by
  rw [← afterText_map_toLower isQuote_of_none, sound.spelling, afterText_opening]

theorem written_closed (sound : phrase.Sound clause) : afterText none phrase.written = none := by
  rw [written, afterText_append, sound.keyword_closed, sound.closed]

theorem length_keyword (sound : phrase.Sound clause) :
    phrase.keyword.length = clause.opening.length := by
  rw [← sound.spelling, List.length_map]

/-- Behind the keyword there is a space. -/
theorem keyword_ends (sound : phrase.Sound clause) :
    ∃ letters, phrase.keyword = letters ++ [' '] := by
  have opening : clause.opening = clause.opening.dropLast ++ [' '] := by
    cases clause <;> rfl
  have spelling := sound.spelling
  rw [opening] at spelling
  obtain ⟨letters, space, whole, _, isSpace⟩ := List.map_eq_append_iff.mp spelling
  obtain ⟨c, others, rfl, lower, none⟩ := List.map_eq_cons_iff.mp isSpace
  obtain rfl := List.map_eq_nil_iff.mp none
  obtain rfl := (Text.toLower_eq_iff (by decide)).mp lower
  exact ⟨letters, whole⟩

/-- Every phrase but that of the select clause begins with a space. -/
theorem begins (sound : phrase.Sound clause) (later : clause ≠ .select) :
    ∃ rest, phrase.written = ' ' :: rest := by
  have spelling : phrase.keyword.map Char.toLower = ' ' :: clause.word := by
    rw [sound.spelling]
    cases clause with
    | select => exact absurd rfl later
    | table | filter | order => rfl
  obtain ⟨c, letters, whole, lower, _⟩ := List.map_eq_cons_iff.mp spelling
  obtain rfl := (Text.toLower_eq_iff (by decide)).mp lower
  exact ⟨letters ++ phrase.text, by rw [written, whole, List.cons_append]⟩

/-- A phrase is where its keyword is found. -/
theorem opening_isPrefix (sound : phrase.Sound clause) (more : List Char) :
    clause.opening <+: lowered (phrase.written ++ more) := by
  rw [← sound.spelling, lowered, written, List.append_assoc, List.map_append, List.append_assoc]
  exact List.prefix_append _ _

/-- The text of a phrase in a normal form has no blanks at its ends. -/
theorem trim (sound : phrase.Sound clause) {before more : List Char}
    (normal : Normal .start none (before ++ (phrase.written ++ more)))
    (closed : afterText none before = none) (ends : ∀ c ∈ more.head?, c = ' ') :
    trimBlanks phrase.text = phrase.text := by
  obtain ⟨letters, whole⟩ := sound.keyword_ends
  have inner := sound.keyword_closed
  rw [whole, afterText_append] at inner
  have outside : afterText none letters = none := by
    cases before : afterText none letters with
    | none => rfl
    | some quote =>
        have isMark := isQuote_of_afterText isQuote_of_none letters quote before
        rw [before, afterText, List.foldl_cons, afterChar, if_neg] at inner
        · cases inner
        · rintro rfl
          exact absurd isMark (by decide)
  have rest := normal.rest
  rw [written, List.append_assoc] at rest
  have others := rest.rest
  rw [closed, sound.keyword_closed, whole, gapAfter_append, outside] at others
  exact trimBlanks_of_normal others sound.closed ends

end Phrase.Sound

/-! ## Reading a layout -/

/-- The text between two places is what stands there, if it has no blanks at its ends. -/
theorem between_eq {before text more : List Char} (trimmed : trimBlanks text = text)
    {first last : Nat} (atFirst : first = before.length)
    (atLast : last = before.length + text.length) :
    between (before ++ (text ++ more)) first last = String.ofList text := by
  subst atFirst atLast
  rw [between, ← List.append_assoc, ← List.length_append, List.take_left, List.drop_left, trimmed]

/-- A text that has some characters is accepted. -/
theorem nonempty_of_ne_nil {text : List Char} (notEmpty : text ≠ []) (clause : Clause) :
    nonempty clause (String.ofList text) = .ok (String.ofList text) := by
  rw [nonempty, if_neg]
  intro empty
  exact notEmpty (by simpa using empty)

theorem head?_written? {phrase? : Option Phrase} {clause : Clause} {more : List Char}
    (sound : ∀ phrase ∈ phrase?, phrase.Sound clause) (later : clause ≠ .select)
    (ends : ∀ c ∈ more.head?, c = ' ') : ∀ c ∈ (written? phrase? ++ more).head?, c = ' ' := by
  cases phrase? with
  | none => exact ends
  | some phrase =>
      obtain ⟨rest, begins⟩ := (sound phrase rfl).begins later
      intro c isFirst
      rw [written?, Option.elim_some, begins, List.cons_append, List.head?_cons] at isFirst
      exact (Option.some.inj isFirst).symm

/-- A keyword is found behind a phrase that is free of it. -/
theorem findKeyword?_behind {before text more : List Char} {keyword : List Char}
    (closed : afterText none before = none) (closedToo : afterText none text = none)
    (free : Free keyword none text more) (here : ' ' :: keyword <+: lowered more) {from_ : Nat}
    (early : before.length ≤ from_) (reached : from_ ≤ before.length + text.length) :
    findKeywordFrom? (' ' :: keyword) from_ none 0 (lowered (before ++ (text ++ more))) =
      some (before.length + text.length) := by
  rw [findKeywordFrom?_of_le isQuote_of_none (by omega), closed,
    findKeywordFrom?_of_free isQuote_of_none free, closedToo, findKeywordFrom?_here (by omega) here]
  simp

/-- A keyword is not found behind a place where the text is free of it. -/
theorem findKeyword?_absent {before text : List Char} {keyword : List Char}
    (notEmpty : keyword ≠ []) (closed : afterText none before = none)
    (free : Free keyword none text []) {from_ : Nat} (early : before.length ≤ from_) :
    findKeywordFrom? (' ' :: keyword) from_ none 0 (lowered (before ++ text)) = none := by
  have nothing :=
    @findKeywordFrom?_of_free keyword from_ before.length none text [] isQuote_of_none free
  rw [findKeywordFrom?_of_le isQuote_of_none (by omega), closed, Nat.zero_add]
  rw [List.append_nil] at nothing
  rw [nothing]
  obtain ⟨first, others, rfl⟩ := List.exists_cons_of_ne_nil notEmpty
  cases afterText none text with
  | some quote => rfl
  | none => simp [lowered, findKeywordFrom?]

theorem Phrase.Sound.length_pos {phrase : Phrase} {clause : Clause} (sound : phrase.Sound clause) :
    0 < phrase.written.length := by
  have notEmpty := List.length_pos_iff.mpr sound.notEmpty
  rw [Phrase.written, List.length_append]
  omega

/-- The order is found behind the last phrase before it, if it is there. -/
theorem findKeyword?_order {before : List Char} {phrase : Phrase} {clause : Clause}
    {order? : Option Phrase} (closed : afterText none before = none) (sound : phrase.Sound clause)
    (orderSound : ∀ order ∈ order?, order.Sound .order)
    (free : Free Clause.order.word none phrase.written (written? order?)) :
    findKeyword? " order by " (before.length + 1)
      (lowered (before ++ (phrase.written ++ written? order?))) =
      order?.map fun _ => before.length + phrase.written.length := by
  have longer := sound.length_pos
  cases order? with
  | none =>
      rw [written?, Option.elim_none] at free ⊢
      rw [List.append_nil]
      exact findKeyword?_absent Clause.order.word_ne_nil closed free (Nat.le_succ _)
  | some order =>
      have here := (orderSound order rfl).opening_isPrefix []
      rw [List.append_nil] at here
      exact findKeyword?_behind closed sound.written_closed free here (Nat.le_succ _) (by omega)

/-- The text of a phrase is what stands between its keyword and the next. -/
theorem Phrase.Sound.read {phrase : Phrase} {clause : Clause} (sound : phrase.Sound clause)
    (trimmed : trimBlanks phrase.text = phrase.text) (before : List Char) {more whole : List Char}
    (isWhole : whole = before ++ (phrase.written ++ more)) {first last : Nat}
    (atFirst : first = before.length + clause.opening.length)
    (atLast : last = before.length + phrase.written.length) :
    nonempty clause (between whole first last) = .ok (String.ofList phrase.text) := by
  have length := sound.length_keyword
  have text : between whole first last = String.ofList phrase.text := by
    rw [isWhole, Phrase.written, List.append_assoc, ← List.append_assoc before]
    apply between_eq trimmed
    · rw [atFirst, List.length_append, length]
    · rw [atLast, Phrase.written, List.length_append, List.length_append, Nat.add_assoc]
  rw [text]
  exact nonempty_of_ne_nil sound.notEmpty clause

namespace Layout.Sound

variable {layout : Layout}

/-- The place of the table clause is the end of the select clause. -/
theorem findTable (sound : layout.Sound) :
    findKeyword? " from " 0 (lowered layout.text) = some layout.select.written.length := by
  have here := sound.table.opening_isPrefix (written? layout.filter? ++ written? layout.order?)
  have found :=
    @findKeyword?_behind [] _ _ _ rfl sound.select.written_closed sound.tableFirst here 0
    (Nat.le_refl 0) (Nat.zero_le _)
  rwa [List.length_nil, Nat.zero_add] at found

/-- The place of the condition is the end of the table clause. -/
theorem findFilter (sound : layout.Sound) :
    findKeyword? " where " (layout.select.written.length + 1) (lowered layout.text) =
      layout.filter?.map fun _ => layout.select.written.length + layout.table.written.length := by
  have closed := sound.select.written_closed
  have longer := sound.table.length_pos
  cases present : layout.filter? with
  | none =>
      rw [text, present]
      have free := sound.filterAbsent present
      exact findKeyword?_absent Clause.filter.word_ne_nil closed free (Nat.le_succ _)
  | some phrase =>
      have here := (sound.filter phrase present).opening_isPrefix (written? layout.order?)
      rw [text, present]
      exact findKeyword?_behind closed sound.table.written_closed
        (sound.filterFirst phrase present) here
        (Nat.le_succ _) (by omega)

/-- The place of the order is the end of the clause before it. -/
theorem findOrder (sound : layout.Sound) :
    findKeyword? " order by "
        ((layout.filter?.map fun _ =>
          layout.select.written.length + layout.table.written.length).getD
          layout.select.written.length + 1) (lowered layout.text) =
      layout.order?.map fun _ =>
        layout.select.written.length +
          (layout.table.written.length + (written? layout.filter?).length) := by
  have closed := sound.select.written_closed
  have free := sound.orderFirst
  cases present : layout.filter? with
  | none =>
      rw [present] at free
      rw [text, present]
      exact findKeyword?_order closed sound.table sound.order free
  | some phrase =>
      rw [present] at free
      have closedToo : afterText none (layout.select.written ++ layout.table.written) = none := by
        rw [afterText_append, closed, sound.table.written_closed]
      have found := findKeyword?_order closedToo (sound.filter phrase present) sound.order free
      rw [List.length_append, List.append_assoc] at found
      rw [text, present]
      simp only [Nat.add_assoc] at found ⊢
      exact found

/-- The texts of the phrases have no blanks at their ends. -/
theorem trimmed (sound : layout.Sound) (normal : Normal .start none layout.text) :
    trimBlanks layout.select.text = layout.select.text ∧
      trimBlanks layout.table.text = layout.table.text ∧
      (∀ phrase ∈ layout.filter?, trimBlanks phrase.text = phrase.text) ∧
      ∀ phrase ∈ layout.order?, trimBlanks phrase.text = phrase.text := by
  have closed := sound.select.written_closed
  have closedToo : afterText none (layout.select.written ++ layout.table.written) = none := by
    rw [afterText_append, closed, sound.table.written_closed]
  have orderEnds := @head?_written? layout.order? .order [] sound.order nofun nofun
  rw [List.append_nil] at orderEnds
  have filterEnds := head?_written? sound.filter nofun orderEnds
  have tableEnds := @head?_written? (some layout.table) .table _
    (fun _ same => Option.some.inj same ▸ sound.table) nofun filterEnds
  rw [text] at normal
  refine ⟨@Phrase.Sound.trim _ _ sound.select [] _ normal rfl tableEnds,
    sound.table.trim normal closed filterEnds, fun phrase present => ?_, fun phrase present => ?_⟩
  · rw [present, ← List.append_assoc] at normal
    exact (sound.filter phrase present).trim normal closedToo orderEnds
  · have closedAll : afterText none
        (layout.select.written ++ layout.table.written ++ written? layout.filter?) = none := by
      rw [afterText_append, closedToo]
      cases filter : layout.filter? with
      | none => rfl
      | some other => exact (sound.filter other filter).written_closed
    rw [present, ← List.append_assoc, ← List.append_assoc] at normal
    have last : Normal .start none
        (layout.select.written ++ layout.table.written ++ written? layout.filter? ++
          (phrase.written ++ [])) := by
      rw [List.append_nil]
      exact normal
    exact (sound.order phrase present).trim last closedAll nofun

theorem readSelect (sound : layout.Sound) (normal : Normal .start none layout.text) :
    nonempty .select (between layout.text 7 layout.select.written.length) =
      .ok layout.clauses.select := by
  apply sound.select.read (sound.trimmed normal).1 []
  · exact (List.nil_append layout.text).symm
  · rfl
  · exact (Nat.zero_add _).symm

theorem readTable (sound : layout.Sound) (normal : Normal .start none layout.text) :
    nonempty .table (between layout.text (layout.select.written.length + 6)
        (layout.select.written.length + layout.table.written.length)) =
          .ok layout.clauses.table := by
  apply sound.table.read (sound.trimmed normal).2.1 layout.select.written
  · rfl
  · rfl
  · rfl

theorem readFilter (sound : layout.Sound) (normal : Normal .start none layout.text)
    {phrase : Phrase} (present : layout.filter? = some phrase) :
    nonempty .filter (between layout.text
        (layout.select.written.length + layout.table.written.length + 7)
        (layout.select.written.length + (layout.table.written.length +
          (written? layout.filter?).length))) = .ok (String.ofList phrase.text) := by
  apply (sound.filter phrase present).read ((sound.trimmed normal).2.2.1 phrase present)
    (layout.select.written ++ layout.table.written)
  · rw [text, present, List.append_assoc]
    rfl
  · rw [List.length_append]
    rfl
  · rw [present, List.length_append, Nat.add_assoc]
    rfl

theorem readOrder (sound : layout.Sound) (normal : Normal .start none layout.text) {phrase : Phrase}
    (present : layout.order? = some phrase) :
    nonempty .order (between layout.text (layout.select.written.length +
        (layout.table.written.length + (written? layout.filter?).length) + 10) layout.text.length) =
      .ok (String.ofList phrase.text) := by
  have whole : layout.text =
      layout.select.written ++ (layout.table.written ++ written? layout.filter?) ++
        (phrase.written ++ []) := by
    rw [text, present, List.append_nil, List.append_assoc, List.append_assoc]
    rfl
  apply (sound.order phrase present).read ((sound.trimmed normal).2.2.2 phrase present) _ whole
  · rw [List.length_append, List.length_append]
    rfl
  · rw [whole, List.append_nil, List.length_append]

/-- The place where the table clause ends. -/
theorem tableEnd (layout : Layout) :
    (((layout.filter?.map fun _ => layout.select.written.length + layout.table.written.length).or
        (layout.order?.map fun _ => layout.select.written.length +
          (layout.table.written.length + (written? layout.filter?).length))).getD
            layout.text.length) =
      layout.select.written.length + layout.table.written.length := by
  cases filter : layout.filter? with
  | some phrase => rfl
  | none =>
      cases order : layout.order? with
      | some phrase => rfl
      | none =>
          rw [text, filter, order, List.length_append, List.length_append]
          rfl

/-- The place where the condition ends. -/
theorem filterEnd (layout : Layout) :
    ((layout.order?.map fun _ => layout.select.written.length +
        (layout.table.written.length + (written? layout.filter?).length)).getD layout.text.length) =
      layout.select.written.length +
        (layout.table.written.length + (written? layout.filter?).length) := by
  cases order : layout.order? with
  | some phrase => rfl
  | none =>
      rw [text, order, List.length_append, List.length_append, List.length_append]
      rfl

/-- **A layout that is sound is split into its clauses.** -/
theorem splitNormal_layout (sound : layout.Sound) (normal : Normal .start none layout.text) :
    splitNormal layout.text = .ok layout.clauses := by
  have begins : "select ".toList.isPrefixOf (layout.text.map Char.toLower ++ [' ']) = true :=
    List.isPrefixOf_iff_prefix.mpr (sound.select.opening_isPrefix _)
  have foundTable := sound.findTable
  have foundFilter := sound.findFilter
  have foundOrder := sound.findOrder
  unfold lowered at foundTable foundFilter foundOrder
  unfold splitNormal
  simp only [begins, if_true, foundTable, foundFilter, foundOrder, tableEnd, filterEnd]
  refine bind_ok (sound.readSelect normal) (bind_ok (sound.readTable normal) ?_)
  rw [clauses]
  cases filter : layout.filter? with
  | none =>
      cases order : layout.order? with
      | none => rfl
      | some ordering =>
          have orderRead := sound.readOrder normal order
          rw [filter] at orderRead
          simp only [Option.map_none, Option.map_some, Option.mapM_none,
            Option.mapM_some, orderRead]
          rfl
  | some filtering =>
      have filterRead := sound.readFilter normal filter
      rw [filter] at filterRead
      cases order : layout.order? with
      | none =>
          simp only [Option.map_none, Option.map_some, Option.mapM_none,
            Option.mapM_some, filterRead]
          rfl
      | some ordering =>
          have orderRead := sound.readOrder normal order
          rw [filter] at orderRead
          simp only [Option.map_some, Option.mapM_some, filterRead, orderRead]
          rfl

end Layout.Sound

/-! ## The layout of a text -/

/-- A clause that is accepted has some text behind its keyword. -/
theorem drop_ne_nil_of_nonempty {clause : Clause} {before text more whole : List Char}
    {length first last : Nat} {read : String}
    (succeeds : nonempty clause (between whole first last) = .ok read)
    (isWhole : whole = before ++ (text ++ more)) (atFirst : first = before.length + length)
    (atLast : last = before.length + text.length) : text.drop length ≠ [] := by
  have inner : (whole.take last).drop first = text.drop length := by
    rw [isWhole, atFirst, atLast, ← List.append_assoc, ← List.length_append, List.take_left,
      List.drop_length_add_append]
  intro empty
  rw [nonempty, between, inner, empty] at succeeds
  cases succeeds

/-- What begins with the keyword of a clause and has text behind it is a phrase of the clause. -/
theorem exists_phrase {clause : Clause} {text more : List Char}
    (begins : clause.opening <+: lowered (text ++ more)) (closed : afterText none text = none)
    (notEmpty : text.drop clause.opening.length ≠ []) :
    ∃ phrase : Phrase, phrase.written = text ∧ phrase.Sound clause := by
  have short : clause.opening.length < text.length := by
    by_cases long : text.length ≤ clause.opening.length
    · exact absurd (List.drop_eq_nil_of_le long) notEmpty
    · omega
  have spelling : (text.take clause.opening.length).map Char.toLower = clause.opening := by
    have taken := List.prefix_iff_eq_take.mp begins
    rw [lowered, List.map_append, List.append_assoc, List.take_append_of_le_length] at taken
    · rw [List.map_take]
      exact taken.symm
    · rw [List.length_map]
      omega
  refine ⟨⟨text.take clause.opening.length, text.drop clause.opening.length⟩, ?_, spelling,
    notEmpty, ?_⟩
  · exact List.take_append_drop _ _
  · have inner : afterText none (text.take clause.opening.length) = none := by
      rw [← afterText_map_toLower isQuote_of_none, spelling, afterText_opening]
    rw [← List.take_append_drop clause.opening.length text, afterText_append, inner] at closed
    exact closed

/-- A text in which a keyword is found begins with a space. -/
theorem exists_of_opening {text other : List Char} (notShort : other ≠ [])
    (begins : ' ' :: other <+: lowered text) : ∃ rest, text = ' ' :: rest := by
  cases text with
  | nil =>
      obtain ⟨_, shorter⟩ := List.cons_prefix_cons.mp begins
      exact absurd (List.prefix_nil.mp shorter) notShort
  | cons c rest =>
      obtain ⟨isSpace, _⟩ := List.cons_prefix_cons.mp begins
      rw [(Text.toLower_eq_iff (by decide)).mp isSpace.symm]
      exact ⟨rest, rfl⟩

/-- A keyword behind the place of another one is at a first place, or nowhere. -/
theorem findKeyword?_cases {before text keyword other : List Char}
    (closed : afterText none before = none) (begins : ' ' :: other <+: lowered text)
    (notShort : other ≠ []) (notEmpty : keyword ≠ [])
    (differ : ¬ keyword <+: other ∧ ¬ other <+: keyword) :
    (findKeywordFrom? (' ' :: keyword) (before.length + 1) none 0
      (lowered (before ++ text)) = none ∧
        Free keyword none text []) ∨
      ∃ first rest, text = first ++ rest ∧
        findKeywordFrom? (' ' :: keyword) (before.length + 1) none 0 (lowered (before ++ text)) =
          some (before.length + first.length) ∧
        afterText none first = none ∧ ' ' :: keyword <+: lowered rest ∧
        Free keyword none first rest := by
  obtain ⟨rest, rfl⟩ := exists_of_opening notShort begins
  have notHere : ¬ ' ' :: keyword <+: lowered (' ' :: rest) := by
    intro here
    rcases List.prefix_or_prefix_of_prefix here begins with same | same
    · exact differ.1 (List.cons_prefix_cons.mp same).2
    · exact differ.2 (List.cons_prefix_cons.mp same).2
  have outside : afterText none (before ++ [' ']) = none := by
    rw [afterText_append, closed]
    rfl
  have early : 0 + (before ++ [' ']).length ≤ before.length + 1 := by
    rw [List.length_append, List.length_singleton]
    omega
  have passed := @findKeywordFrom?_of_le keyword (before.length + 1) 0 none (before ++ [' ']) rest
    isQuote_of_none early
  rw [List.append_assoc, List.singleton_append, outside, List.length_append, List.length_singleton,
    Nat.zero_add] at passed
  rw [passed]
  rcases findKeywordFrom?_cases isQuote_of_none notEmpty (Nat.le_refl (before.length + 1)) rest with
    ⟨missing, free⟩ | ⟨first, others, rfl, found, inner, here, free⟩
  · refine .inl ⟨missing, Free.cons free fun _ => ?_⟩
    rwa [List.append_nil]
  · refine .inr ⟨' ' :: first, others, rfl, ?_, inner, here, Free.cons free fun _ => notHere⟩
    rw [found, List.length_cons]
    congr 1
    omega

/-- The last clause before the order, and the order if there is one, are phrases. -/
theorem exists_order {clause : Clause} {before text : List Char} {last : String}
    {order : Option String} (closed : afterText none before = none)
    (closedToo : afterText none text = none) (begins : clause.opening <+: lowered text)
    (opening : clause.opening = ' ' :: clause.word)
    (differ : ¬ Clause.order.word <+: clause.word ∧ ¬ clause.word <+: Clause.order.word)
    (lastOk : nonempty clause (between (before ++ text) (before.length + clause.opening.length)
      ((findKeyword? " order by " (before.length + 1) (lowered (before ++ text))).getD
        (before ++ text).length)) = .ok last)
    (orderOk : (findKeyword? " order by " (before.length + 1) (lowered (before ++ text))).mapM
      (fun place => nonempty .order
        (between (before ++ text) (place + 10) (before ++ text).length)) =
        .ok order) :
    ∃ (phrase : Phrase) (order? : Option Phrase), text = phrase.written ++ written? order? ∧
      phrase.Sound clause ∧ (∀ ordering ∈ order?, ordering.Sound .order) ∧
      Free Clause.order.word none phrase.written (written? order?) := by
  rcases findKeyword?_cases closed (opening ▸
    begins) clause.word_ne_nil Clause.order.word_ne_nil differ with
    ⟨missing, free⟩ | ⟨first, rest, rfl, found, inner, here, free⟩
  · have missingToo : findKeyword? " order by " (before.length + 1) (lowered (before ++ text)) =
        none :=
      missing
    rw [missingToo] at lastOk
    have whole : before ++ text = before ++ (text ++ []) := by rw [List.append_nil]
    have notEmpty := drop_ne_nil_of_nonempty lastOk whole rfl List.length_append
    rw [← List.append_nil text] at begins
    obtain ⟨phrase, rfl, sound⟩ := exists_phrase begins closedToo notEmpty
    exact ⟨phrase, none, (List.append_nil _).symm, sound, nofun, free⟩
  · have foundToo : findKeyword? " order by " (before.length + 1)
        (lowered (before ++ (first ++ rest))) =
        some (before.length + first.length) := found
    rw [foundToo] at lastOk orderOk
    rw [Option.mapM_some] at orderOk
    obtain ⟨read, readOk, _⟩ := ok_of_map orderOk
    have notEmpty := drop_ne_nil_of_nonempty lastOk rfl rfl rfl
    have whole : before ++ (first ++ rest) = (before ++ first) ++ (rest ++ []) := by
      rw [List.append_nil, List.append_assoc]
    have orderSome := @drop_ne_nil_of_nonempty _ _ _ _ _ 10 _ _ _ readOk whole
      (by rw [List.length_append]) (by rw [whole, List.length_append, List.append_nil])
    rw [afterText_append, inner] at closedToo
    rw [← List.append_nil rest] at here
    obtain ⟨phrase, rfl, sound⟩ := exists_phrase begins inner notEmpty
    obtain ⟨ordering, rfl, orderSound⟩ := @exists_phrase .order _ _ here closedToo orderSome
    refine ⟨phrase, some ordering, rfl, sound, ?_, free⟩
    rintro _ ⟨⟩
    exact orderSound

/-- The clauses behind the select clause are phrases. The filter is looked for behind the table, and
the order behind the filter where there is one, else behind the table too. -/
theorem exists_layout_of_select {select : Phrase} {text : List Char} {source : String}
    {filter order : Option String} {filter? order? : Option Nat}
    (selectSound : select.Sound .select) (closed : afterText none text = none)
    (begins : Clause.table.opening <+: lowered text)
    (tableFirst : Free Clause.table.word none select.written text)
    (filterAt : findKeyword? " where " (select.written.length + 1)
      (lowered (select.written ++ text)) =
      filter?)
    (orderAt : findKeyword? " order by " (filter?.getD select.written.length + 1)
      (lowered (select.written ++ text)) = order?)
    (tableOk : nonempty .table (between (select.written ++ text) (select.written.length + 6)
      ((filter?.or order?).getD (select.written ++ text).length)) = .ok source)
    (filterOk : filter?.mapM
      (fun place => nonempty .filter
        (between (select.written ++ text) (place + 7)
          (order?.getD (select.written ++ text).length))) = .ok filter)
    (orderOk : order?.mapM
      (fun place => nonempty .order
        (between (select.written ++ text) (place + 10) (select.written ++ text).length)) =
          .ok order) :
    ∃ layout : Layout, layout.Sound ∧ layout.text = select.written ++ text := by
  have outside := selectSound.written_closed
  rcases findKeyword?_cases outside begins Clause.table.word_ne_nil Clause.filter.word_ne_nil
    (by decide) with ⟨missing, free⟩ | ⟨first, rest, rfl, found, inner, here, free⟩
  · obtain rfl : none = filter? := missing.symm.trans filterAt
    subst orderAt
    obtain ⟨table, order?, rfl, tableSound, orderSound, orderFree⟩ :=
      @exists_order .table _ _ _ _ outside closed begins rfl (by decide) tableOk orderOk
    exact ⟨⟨select, table, none, order?⟩,
      ⟨selectSound, tableSound, nofun, orderSound, tableFirst, nofun, fun _ => free, orderFree⟩,
      rfl⟩
  · obtain rfl : some (select.written.length + first.length) = filter? := found.symm.trans filterAt
    subst orderAt
    rw [Option.mapM_some] at filterOk
    obtain ⟨read, readOk, _⟩ := ok_of_map filterOk
    have tableSome := @drop_ne_nil_of_nonempty _ _ _ _ _ 6 _ _ _ tableOk rfl rfl rfl
    obtain ⟨table, rfl, tableSound⟩ := @exists_phrase .table _ _ begins inner tableSome
    rw [afterText_append, inner] at closed
    have outsideToo : afterText none (select.written ++ table.written) = none := by
      rw [afterText_append, outside, inner]
    rw [Option.getD_some, ← List.append_assoc, ← List.length_append] at readOk orderOk
    obtain ⟨filtering, order?, rfl, filterSound, orderSound, orderFree⟩ :=
      @exists_order .filter _ _ _ _ outsideToo closed here rfl (by decide) readOk orderOk
    refine ⟨⟨select, table, some filtering, order?⟩,
      ⟨selectSound, tableSound, ?_, orderSound, tableFirst, ?_, nofun, orderFree⟩, rfl⟩
    · rintro _ ⟨⟩
      exact filterSound
    · rintro _ ⟨⟩
      exact free

/-- **A text that is split has a layout.** -/
theorem exists_layout {text : List Char} {clauses : Clauses} (closed : afterText none text = none)
    (succeeds : splitNormal text = .ok clauses) :
    ∃ layout : Layout, layout.Sound ∧ layout.text = text := by
  unfold splitNormal at succeeds
  dsimp only at succeeds
  split at succeeds
  · next begins =>
    split at succeeds
    · cases succeeds
    · next place foundTable =>
      obtain ⟨select, selectOk, others⟩ := ok_of_bind succeeds
      obtain ⟨source, tableOk, others⟩ := ok_of_bind others
      obtain ⟨filter, filterOk, others⟩ := ok_of_bind others
      obtain ⟨order, orderOk, _⟩ := ok_of_bind others
      rcases findKeywordFrom?_cases isQuote_of_none Clause.table.word_ne_nil
        (Nat.le_refl 0) text with ⟨missing, _⟩ | ⟨before, rest, rfl, found, outside, here, free⟩
      · exact nomatch foundTable.symm.trans missing
      · obtain rfl : before.length = place := by
          have same := Option.some.inj (found.symm.trans foundTable)
          omega
        have notEmpty :=
          @drop_ne_nil_of_nonempty _ [] _ _ _ 7 _ _ _ selectOk rfl rfl (Nat.zero_add _).symm
        obtain ⟨selecting, rfl, selectSound⟩ :=
          @exists_phrase .select _ _ (List.isPrefixOf_iff_prefix.mp begins) outside notEmpty
        rw [afterText_append, outside] at closed
        exact exists_layout_of_select selectSound closed here free rfl rfl tableOk filterOk orderOk
  · cases succeeds

end Query

end EntityQuery

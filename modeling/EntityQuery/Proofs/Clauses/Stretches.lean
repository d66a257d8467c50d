import EntityQuery.Proofs.Tokens.NormalForm
import EntityQuery.Proofs.Text.Pieces

/-!
# Stretches of a text

A text consists of stretches (`Stretches`): runs of blanks, literals, and the characters between
them. Runs are maximal and literals end with the next quotation mark of their kind, so there is one
way to take a text apart (`Stretches.unique`). Squeezing a text replaces each run of blanks by a
space, and leaves out the runs at its ends (`Stretches.squeezed`); so two texts are squeezed into
the same if and only if they differ in nothing but such runs (`sameButBlanks_iff`).

A literal is not closed if and only if its quotation mark stands outside the literals before it and
is the last of its kind (`unclosed?_eq_some_iff`). A text without such a literal has a normal form,
which is its own normal form, and which it shares with exactly the texts that differ from it in runs
of blanks (`normalize_canonical`).
-/

set_option autoImplicit false

namespace EntityQuery.Query

open Text (isBlank octets)

/-! ## Literals that are not closed -/

section

variable {text rest : List Char} {quote : Char}

/-- What closes its literals has no part in where a literal starts that is not closed. -/
theorem unclosedFrom?_append {open_ : Option (Char × Nat)} {place : Nat}
    (closed : afterText (open_.map Prod.fst) text = none) (more : List Char) :
    unclosedFrom? open_ place (text ++ more) = unclosedFrom? none (place + octets text) more := by
  induction text generalizing open_ place with
  | nil =>
      obtain rfl := Option.map_eq_none_iff.mp closed
      rfl
  | cons c text ih =>
      have onwards : afterText ((afterCharAt place open_ c).map Prod.fst) text = none := by
        rw [map_afterCharAt]
        exact closed
      rw [List.cons_append, unclosedFrom?, ih onwards, octets, Nat.add_assoc]

/-- A literal without its quotation mark behind the first one is not closed. -/
theorem unclosedFrom?_of_notMem (notInside : quote ∉ text) (start place : Nat) :
    unclosedFrom? (some (quote, start)) place text = some start := by
  induction text generalizing place with
  | nil => rfl
  | cons c text ih =>
      rw [List.mem_cons, not_or] at notInside
      rw [unclosedFrom?, afterCharAt, if_neg (Ne.symm notInside.1)]
      exact ih notInside.2 _

/-- The literal that a text does not close is the one that is open before it, or starts in it
outside the literals before. -/
theorem unclosedFrom?_cases {open_ : Option (Char × Nat)} {place start : Nat}
    (found : unclosedFrom? open_ place text = some start) :
    (∃ quote, open_ = some (quote, start) ∧ quote ∉ text) ∨
      ∃ before quote rest, text = before ++ quote :: rest ∧ isQuote quote = true ∧ quote ∉ rest ∧
        afterText (open_.map Prod.fst) before = none ∧ start = place + octets before := by
  induction text generalizing open_ place with
  | nil =>
      obtain ⟨⟨quote, start⟩, rfl, rfl⟩ := Option.map_eq_some_iff.mp found
      exact .inl ⟨quote, rfl, nofun⟩
  | cons c text ih =>
      rcases ih found with
        ⟨quote, opened, notInside⟩ | ⟨before, quote, rest, rfl, isMark, last, closed, rfl⟩
      · cases open_ with
        | none =>
            rw [afterCharAt, Option.ite_none_right_eq_some] at opened
            obtain ⟨isMark, same⟩ := opened
            cases same
            exact .inr ⟨[], c, text, rfl, isMark, notInside, rfl, rfl⟩
        | some mark =>
            rw [afterCharAt, Option.ite_none_left_eq_some] at opened
            obtain ⟨differs, same⟩ := opened
            cases same
            exact .inl ⟨_, rfl, by simpa using ⟨Ne.symm differs, notInside⟩⟩
      · refine .inr ⟨c :: before, quote, rest, rfl, isMark, last, ?_, by rw [octets, Nat.add_assoc]⟩
        rwa [map_afterCharAt] at closed

/-- **A literal is not closed if and only if its quotation mark is outside the literals before it
and the last of its kind.** -/
theorem unclosed?_eq_some_iff {start : Nat} :
    unclosed? text = some start ↔
      ∃ before quote rest, text = before ++ quote :: rest ∧ isQuote quote = true ∧ quote ∉ rest ∧
        afterText none before = none ∧ start = octets before := by
  constructor
  · intro found
    rcases unclosedFrom?_cases found with
      ⟨_, opened, _⟩ | ⟨before, quote, rest, split, isMark, last, closed, same⟩
    · cases opened
    · exact ⟨before, quote, rest, split, isMark, last, closed, same.trans (Nat.zero_add _)⟩
  · rintro ⟨before, quote, rest, rfl, isMark, last, closed, rfl⟩
    have opens : afterCharAt (0 + octets before) none quote = some (quote, 0 + octets before) :=
      if_pos isMark
    rw [unclosed?, @unclosedFrom?_append before none 0 closed, unclosedFrom?, opens,
      unclosedFrom?_of_notMem last, Nat.zero_add]

/-- A text has a normal form if it closes its literals, and it is the squeezed text. -/
theorem normalize_eq_ok_iff {text normal : String} :
    normalize text = .ok normal ↔
      afterText none text.toList = none ∧
      normal = String.ofList (squeeze .start none text.toList) := by
  rw [← Option.not_isSome_iff_eq_none, ← unclosed?_isSome, normalize_eq]
  cases unclosed? text.toList with
  | some start =>
      constructor
      · intro same
        cases same
      · exact fun both => absurd rfl both.1
  | none =>
      exact ⟨fun same => ⟨Bool.false_ne_true, (Except.ok.inj same).symm⟩, fun both => both.2 ▸ rfl⟩

theorem exists_normalize_iff {text : String} :
    (∃ normal, normalize text = .ok normal) ↔ afterText none text.toList = none := by
  simp only [normalize_eq_ok_iff, exists_and_left, exists_eq, and_true]

/-- A text has no normal form exactly for a literal that it does not close. -/
theorem normalize_eq_error_iff {text : String} {problem : TextError} :
    normalize text = .error problem ↔
      ∃ start, unclosed? text.toList = some start ∧ problem = .unterminatedLiteral start := by
  rw [normalize_eq]
  cases unclosed? text.toList with
  | some start => simp [eq_comm]
  | none => simp

end

/-! ## Stretches -/

/-- A part of a text that is squeezed as a whole. -/
inductive Stretch where
  /-- White space outside literals. -/
  | blanks (run : List Char)
  /-- A character outside literals that is neither a blank nor a quotation mark. -/
  | visible (c : Char)
  /-- What stands between two quotation marks of one kind, and the marks. -/
  | literal (quote : Char) (body : List Char)
  /-- What stands behind a quotation mark that is the last of its kind, and the mark. -/
  | unclosed (quote : Char) (body : List Char)
  deriving DecidableEq

namespace Stretch

def text : Stretch → List Char
  | .blanks run => run
  | .visible c => [c]
  | .literal quote body => quote :: (body ++ [quote])
  | .unclosed quote body => quote :: body

/-- The stretch with a space for a run of blanks. -/
def squeezed : Stretch → Stretch
  | .blanks _ => .blanks [' ']
  | stretch => stretch

end Stretch

/-- The text that stretches make up. -/
def spelled (stretches : List Stretch) : List Char :=
  stretches.flatMap Stretch.text

theorem spelled_cons (stretch : Stretch) (stretches : List Stretch) :
    spelled (stretch :: stretches) = stretch.text ++ spelled stretches :=
  rfl

/-- The stretches of a text: the runs of blanks are maximal, and a literal ends with the next
quotation mark of its kind. -/
inductive Stretches : List Char → List Stretch → Prop where
  | nil : Stretches [] []
  | blanks {run more : List Char} {stretches : List Stretch} (notEmpty : run ≠ [])
      (allBlank : ∀ c ∈ run, isBlank c = true) (maximal : ∀ c ∈ more.head?, isBlank c = false)
      (others : Stretches more stretches) : Stretches (run ++ more) (.blanks run :: stretches)
  | visible {c : Char} {more : List Char} {stretches : List Stretch} (notBlank : isBlank c = false)
      (noQuote : isQuote c = false) (others : Stretches more stretches) :
      Stretches (c :: more) (.visible c :: stretches)
  | literal {quote : Char} {body more : List Char} {stretches : List Stretch}
      (isMark : isQuote quote = true)
      (notInside : quote ∉ body) (others : Stretches more stretches) :
      Stretches (quote :: (body ++ quote :: more)) (.literal quote body :: stretches)
  | unclosed {quote : Char} {body : List Char} (isMark : isQuote quote = true)
      (notInside : quote ∉ body) :
      Stretches (quote :: body) [.unclosed quote body]

/-- Stretches without a run of blanks at the start. -/
def withoutFirstBlanks : List Stretch → List Stretch
  | .blanks _ :: rest => rest
  | stretches => stretches

/-- Stretches without a run of blanks at the end. -/
def withoutLastBlanks : List Stretch → List Stretch
  | [] => []
  | [.blanks _] => []
  | stretch :: rest => stretch :: withoutLastBlanks rest

/-- Stretches without runs of blanks at either end. -/
def trimmed (stretches : List Stretch) : List Stretch :=
  withoutLastBlanks (withoutFirstBlanks stretches)

/-- Two texts differ at most in blanks at their ends, and in the length and kind of other runs of
blanks outside literals. -/
def SameButBlanks (text other : List Char) : Prop :=
  ∃ stretches others, Stretches text stretches ∧ Stretches other others ∧
    (trimmed stretches).map Stretch.squeezed = (trimmed others).map Stretch.squeezed

/-- The stretches of a text one after another. -/
def stretchesOf (text : List Char) : List Stretch :=
  match text with
  | [] => []
  | c :: rest =>
    if isBlank c then .blanks (c :: rest.takeWhile isBlank) :: stretchesOf (rest.dropWhile isBlank)
    else if isQuote c then
      if c ∈ rest then .literal c (rest.takeWhile (· ≠ c)) ::
        stretchesOf (rest.dropWhile (· ≠ c)).tail
      else [.unclosed c rest]
    else .visible c :: stretchesOf rest
termination_by text.length
decreasing_by
  · exact Nat.lt_succ_of_le (rest.dropWhile_suffix isBlank).length_le
  · exact Nat.lt_succ_of_le ((List.tail_suffix _).trans (rest.dropWhile_suffix _)).length_le
  · exact Nat.lt_succ_self _

theorem stretchesOf_nil : stretchesOf [] = [] := by
  rw [stretchesOf.eq_def]

theorem stretchesOf_cons (c : Char) (rest : List Char) :
    stretchesOf (c :: rest) =
      if isBlank c then .blanks (c :: rest.takeWhile isBlank) ::
        stretchesOf (rest.dropWhile isBlank)
      else if isQuote c then
        if c ∈ rest then .literal c (rest.takeWhile (· ≠ c)) ::
          stretchesOf (rest.dropWhile (· ≠ c)).tail
        else [.unclosed c rest]
      else .visible c :: stretchesOf rest := by
  rw [stretchesOf.eq_def]

section

variable {text body run : List Char} {quote : Char}

theorem doubled_of_notMem (notInside : quote ∉ body) : Doubled quote body := by
  induction body with
  | nil => exact .nil
  | cons c rest ih =>
      rw [List.mem_cons, not_or] at notInside
      exact .other (Ne.symm notInside.1) (ih notInside.2)

theorem afterText_of_blanks (allBlank : ∀ c ∈ run, isBlank c = true) :
    afterText none run = none := by
  refine afterText_none (List.any_eq_false.mpr fun c member isMark => ?_)
  have blank := allBlank c member
  rw [isBlank_of_isQuote isMark] at blank
  cases blank

theorem afterText_literal (isMark : isQuote quote = true) (notInside : quote ∉ body)
    (more : List Char) :
    afterText none (quote :: (body ++ quote :: more)) = afterText none more := by
  have inside := (doubled_of_notMem notInside).afterText_eq isMark
  rw [afterText] at inside ⊢
  rw [List.foldl_cons, afterChar_of_isQuote isMark, List.foldl_append, inside, List.foldl_cons,
    afterChar_self]
  rfl

/-- A run of blanks widens the gap. -/
theorem squeeze_blanks (notEmpty : run ≠ []) (allBlank : ∀ c ∈ run, isBlank c = true) (gap : Gap)
    (more : List Char) : squeeze gap none (run ++ more) = squeeze gap.widen none more := by
  induction run generalizing gap with
  | nil => exact absurd rfl notEmpty
  | cons c rest ih =>
      rw [List.cons_append, squeeze_of_isBlank (allBlank c List.mem_cons_self)]
      cases rest with
      | nil => rfl
      | cons d others =>
          have twice : gap.widen.widen = gap.widen := by cases gap <;> rfl
          rw [ih nofun fun e member => allBlank e (List.mem_cons_of_mem _ member), twice]

/-- A literal is kept. -/
theorem squeeze_literal (isMark : isQuote quote = true) (notInside : quote ∉ body)
    (more : List Char) :
    squeeze .closed none (quote :: (body ++ quote :: more)) =
      quote :: (body ++ quote :: squeeze .closed none more) := by
  rw [squeeze_of_not_isBlank (isBlank_of_isQuote isMark), afterChar_of_isQuote isMark,
    squeeze_append_of_doubled isMark (doubled_of_notMem notInside), squeeze, afterChar_self]
  rfl

/-- A literal that is not closed is kept. -/
theorem squeeze_unclosed (isMark : isQuote quote = true) (notInside : quote ∉ body) :
    squeeze .closed none (quote :: body) = quote :: body := by
  have inner := squeeze_append_of_doubled isMark (doubled_of_notMem notInside) []
  rw [List.append_nil, squeeze, List.append_nil] at inner
  rw [squeeze_of_not_isBlank (isBlank_of_isQuote isMark), afterChar_of_isQuote isMark, inner]
  rfl

/-- What does not begin with a blank is squeezed as behind some text, with the gap in front of it.
-/
theorem squeeze_of_head (first : ∀ c ∈ text.head?, isBlank c = false) (notEmpty : text ≠ [])
    (gap : Gap) :
    squeeze gap none text = gap.text ++ squeeze .closed none text := by
  obtain ⟨c, rest, rfl⟩ := List.exists_cons_of_ne_nil notEmpty
  rw [squeeze_of_not_isBlank (first c rfl), squeeze_of_not_isBlank (first c rfl)]
  rfl

theorem squeeze_start_of_head (first : ∀ c ∈ text.head?, isBlank c = false) :
    squeeze .start none text = squeeze .closed none text := by
  cases text with
  | nil => rfl
  | cons c rest => exact squeeze_of_head first nofun .start

theorem head?_squeeze_of_head (first : ∀ c ∈ text.head?, isBlank c = false) :
    (squeeze .closed none text).head? = text.head? := by
  cases text with
  | nil => rfl
  | cons c rest =>
      rw [squeeze_of_not_isBlank (first c rfl)]
      rfl

end

/-- A text consists of stretches. -/
theorem stretches_stretchesOf (text : List Char) : Stretches text (stretchesOf text) := by
  fun_induction stretchesOf text with
  | case1 => exact .nil
  | case2 c rest blank ih =>
      have run : Stretches ((c :: rest.takeWhile isBlank) ++ rest.dropWhile isBlank) _ :=
        .blanks nofun (fun d member => ?_) (fun d isFirst => ?_) ih
      · rwa [List.cons_append, List.takeWhile_append_dropWhile] at run
      · exact (List.mem_cons.mp member).elim (· ▸ blank) List.mem_takeWhile_imp
      · have stops := List.head?_dropWhile_not isBlank rest
        rw [Option.mem_def.mp isFirst] at stops
        exact stops
  | case3 c rest notBlank isMark member ih =>
      obtain ⟨after, whole, left⟩ := Text.exists_of_mem member
      rw [left, List.tail_cons] at ih ⊢
      conv_lhs => rw [whole]
      exact .literal isMark (Text.notMem_takeWhile c rest) ih
  | case4 c rest notBlank isMark missing => exact .unclosed isMark missing
  | case5 c rest notBlank noQuote ih =>
      exact .visible (Bool.eq_false_iff.mpr notBlank) (Bool.eq_false_iff.mpr noQuote) ih

namespace Stretches

variable {text more : List Char} {stretches others : List Stretch}

/-- **A text consists of its stretches in one way only.** -/
theorem eq_stretchesOf (taken : Stretches text stretches) : stretches = stretchesOf text := by
  induction taken with
  | nil => exact stretchesOf_nil.symm
  | @blanks run more stretches notEmpty allBlank maximal _ ih =>
      obtain ⟨c, rest, rfl⟩ := List.exists_cons_of_ne_nil notEmpty
      have inner : ∀ d ∈ rest, isBlank d = true :=
        fun d member => allBlank d (List.mem_cons_of_mem _ member)
      have ends : more.takeWhile isBlank = [] ∧ more.dropWhile isBlank = more := by
        cases more with
        | nil => exact ⟨rfl, rfl⟩
        | cons d others =>
            have notBlank := Bool.eq_false_iff.mp (maximal d rfl)
            exact ⟨List.takeWhile_cons_of_neg notBlank, List.dropWhile_cons_of_neg notBlank⟩
      rw [List.cons_append, stretchesOf_cons, if_pos (allBlank c List.mem_cons_self),
        List.takeWhile_append_of_pos inner, List.dropWhile_append_of_pos inner, ends.1, ends.2,
        List.append_nil, ih]
  | visible notBlank noQuote _ ih =>
      rw [stretchesOf_cons, if_neg (Bool.eq_false_iff.mp notBlank),
        if_neg (Bool.eq_false_iff.mp noQuote), ih]
  | @literal quote body more stretches isMark notInside _ ih =>
      have member : quote ∈ body ++ quote :: more := List.mem_append_right _ List.mem_cons_self
      obtain ⟨front, behind⟩ := @Text.split_append quote body (quote :: more) notInside (by simp)
      rw [stretchesOf_cons, if_neg (Bool.eq_false_iff.mp (isBlank_of_isQuote isMark)),
        if_pos isMark, if_pos member, front, behind, List.tail_cons, ih]
  | unclosed isMark notInside =>
      rw [stretchesOf_cons, if_neg (Bool.eq_false_iff.mp (isBlank_of_isQuote isMark)),
        if_pos isMark, if_neg notInside]

theorem unique (taken : Stretches text stretches) (takenToo : Stretches text others) :
    stretches = others :=
  taken.eq_stretchesOf.trans takenToo.eq_stretchesOf.symm

/-- The stretches make up the text. -/
theorem spelled_eq (taken : Stretches text stretches) : spelled stretches = text := by
  induction taken with
  | nil => rfl
  | blanks _ _ _ _ ih => rw [spelled_cons, ih]; rfl
  | visible _ _ _ ih => rw [spelled_cons, ih]; rfl
  | literal _ _ _ ih => rw [spelled_cons, ih, Stretch.text]; simp
  | unclosed => rw [spelled_cons]; exact List.append_nil _

/-- A text without stretches is empty. -/
theorem eq_nil (taken : Stretches text []) : text = [] :=
  taken.spelled_eq.symm

theorem ne_nil {stretch : Stretch} (taken : Stretches text (stretch :: stretches)) : text ≠ [] := by
  cases taken with
  | blanks notEmpty => exact fun empty => notEmpty (List.append_eq_nil_iff.mp empty).1
  | visible | literal | unclosed => exact nofun

/-- A text that closes its literals has no literal that is not closed. -/
theorem notMem_unclosed (taken : Stretches text stretches) (closed : afterText none text = none)
    (quote : Char) (body : List Char) : .unclosed quote body ∉ stretches := by
  induction taken with
  | nil => exact List.not_mem_nil
  | blanks _ allBlank _ _ ih =>
      rw [afterText_append, afterText_of_blanks allBlank] at closed
      simpa using ih closed
  | visible _ noQuote _ ih =>
      rw [afterText, List.foldl_cons, afterChar_of_not_isQuote isQuote_of_none noQuote] at closed
      simpa using ih closed
  | literal isMark notInside _ ih =>
      rw [afterText_literal isMark notInside] at closed
      simpa using ih closed
  | @unclosed mark inner isMark notInside =>
      have opens : afterText none (mark :: inner) = afterText (some mark) inner :=
        congrArg (afterText · inner) (afterChar_of_isQuote isMark)
      rw [opens, (doubled_of_notMem notInside).afterText_eq isMark] at closed
      cases closed

/-! ## Squeezed stretches -/

/-- **Behind some text, squeezing replaces runs of blanks by spaces and leaves out the last one.**
-/
theorem squeezed_closed (taken : Stretches text stretches) :
    Stretches (squeeze .closed none text) ((withoutLastBlanks stretches).map Stretch.squeezed) := by
  induction taken with
  | nil => exact .nil
  | @blanks run more stretches notEmpty allBlank maximal others ih =>
      rw [squeeze_blanks notEmpty allBlank]
      cases stretches with
      | nil =>
          obtain rfl := others.eq_nil
          exact .nil
      | cons stretch rest =>
          rw [squeeze_of_head maximal others.ne_nil]
          refine @blanks [' '] _ _ nofun (List.forall_mem_singleton.mpr Text.isBlank_space) ?_ ih
          rwa [head?_squeeze_of_head maximal]
  | @visible c more stretches notBlank noQuote _ ih =>
      rw [squeeze_of_not_isBlank notBlank, afterChar_of_not_isQuote isQuote_of_none noQuote]
      exact .visible notBlank noQuote ih
  | literal isMark notInside _ ih =>
      rw [squeeze_literal isMark notInside]
      exact .literal isMark notInside ih
  | unclosed isMark notInside =>
      rw [squeeze_unclosed isMark notInside]
      exact .unclosed isMark notInside

/-- **Squeezing replaces runs of blanks by spaces and leaves out those at the ends.** -/
theorem squeezed (taken : Stretches text stretches) :
    Stretches (squeeze .start none text) ((trimmed stretches).map Stretch.squeezed) := by
  have whole := taken.squeezed_closed
  cases taken with
  | nil => exact .nil
  | blanks notEmpty allBlank maximal others =>
      rw [squeeze_blanks notEmpty allBlank, Gap.widen, squeeze_start_of_head maximal]
      exact others.squeezed_closed
  | visible notBlank =>
      rwa [squeeze_start_of_head (by rintro _ ⟨⟩; exact notBlank)]
  | literal isMark | unclosed isMark =>
      rwa [squeeze_start_of_head (by rintro _ ⟨⟩; exact isBlank_of_isQuote isMark)]

end Stretches

/-- **Two texts differ in nothing but runs of blanks if and only if they are squeezed into the
same.** -/
theorem sameButBlanks_iff {text other : List Char} :
    SameButBlanks text other ↔ squeeze .start none text = squeeze .start none other := by
  constructor
  · rintro ⟨stretches, others, taken, takenToo, same⟩
    rw [← taken.squeezed.spelled_eq, ← takenToo.squeezed.spelled_eq, same]
  · intro same
    have taken := stretches_stretchesOf text
    have takenToo := stretches_stretchesOf other
    exact ⟨_, _, taken, takenToo, taken.squeezed.unique (same ▸ takenToo.squeezed)⟩

/-! ## Normal forms -/

/-- **The normal form of a text.** A text has none exactly for a quotation mark that is the last of
its kind, where the text before has a normal form. Otherwise the normal form has the literals of the
text as they are, a space for every other run of blanks and none at its ends. It is its own normal
form, and that of exactly the texts that differ from the text in nothing but runs of blanks. -/
theorem normalize_canonical (text : String) :
    (∀ problem, normalize text = .error problem ↔
      ∃ before quote rest, text.toList = before ++ quote :: rest ∧ isQuote quote = true ∧
        quote ∉ rest ∧
        (∃ normal, normalize (String.ofList before) = .ok normal) ∧
        problem = .unterminatedLiteral (octets before)) ∧
    (∀ normal, normalize text = .ok normal →
      normalize normal = .ok normal ∧
      ∃ stretches, Stretches text.toList stretches ∧
        (∀ quote body, .unclosed quote body ∉ stretches) ∧
        normal.toList = spelled ((trimmed stretches).map Stretch.squeezed)) ∧
    ∀ other : String,
      (SameButBlanks text.toList other.toList →
        ∀ normal, normalize other = .ok normal ↔ normalize text = .ok normal) ∧
      ∀ normal, normalize text = .ok normal → normalize other = .ok normal →
        SameButBlanks text.toList other.toList := by
  refine ⟨fun problem => ?_, fun normal succeeds => ⟨?_, ?_⟩,
    fun other => ⟨fun same normal => ?_, ?_⟩⟩
  · simp only [exists_normalize_iff, String.toList_ofList, normalize_eq_error_iff,
      unclosed?_eq_some_iff]
    constructor
    · rintro ⟨_, ⟨before, quote, rest, whole, isMark, last, closed, rfl⟩, same⟩
      exact ⟨before, quote, rest, whole, isMark, last, closed, same⟩
    · rintro ⟨before, quote, rest, whole, isMark, last, closed, same⟩
      exact ⟨_, ⟨before, quote, rest, whole, isMark, last, closed, rfl⟩, same⟩
  · obtain ⟨isNormal, closed⟩ := normal_of_normalize succeeds
    have own := normalize_of_normal isNormal closed
    rwa [String.ofList_toList] at own
  · obtain ⟨closed, rfl⟩ := normalize_eq_ok_iff.mp succeeds
    have taken := stretches_stretchesOf text.toList
    refine ⟨_, taken, taken.notMem_unclosed closed, ?_⟩
    rw [String.toList_ofList, taken.squeezed.spelled_eq]
  · have squeezed := sameButBlanks_iff.mp same
    have sameOpen : afterText none other.toList = afterText none text.toList := by
      rw [← afterText_squeeze .start none text.toList, squeezed, afterText_squeeze]
    rw [normalize_eq_ok_iff, normalize_eq_ok_iff, sameOpen, squeezed]
  · intro normal first second
    have same := (normalize_eq_ok_iff.mp first).2.symm.trans (normalize_eq_ok_iff.mp second).2
    exact sameButBlanks_iff.mpr (String.ofList_injective same)

/-- Texts with other blanks around a literal and at the ends, and one whose literal is not closed
behind a character of two octets. -/
theorem normalize_canonical_area :
    SameButBlanks "a\t 'b  c'".toList " a 'b  c' ".toList ∧
      normalize "a\t 'b  c'" = .ok "a 'b  c'" ∧
      normalize " a 'b  c' " = .ok "a 'b  c'" ∧ normalize "a 'b  c'" = .ok "a 'b  c'" ∧
      normalize "é 'b" = .error (.unterminatedLiteral 3) := by
  have same : SameButBlanks "a\t 'b  c'".toList " a 'b  c' ".toList :=
    ⟨_, _, stretches_stretchesOf _, stretches_stretchesOf _, by decide +kernel⟩
  have first : normalize "a\t 'b  c'" = .ok "a 'b  c'" := by decide +kernel
  obtain ⟨_, succeeds, others⟩ := normalize_canonical "a\t 'b  c'"
  refine ⟨same, first, ((others _).1 same _).mpr first, (succeeds _ first).1, ?_⟩
  exact ((normalize_canonical "é 'b").1 _).mpr
    ⟨"é ".toList, '\'', ['b'], by decide, by decide, by decide, ⟨"é", by decide +kernel⟩, by decide⟩

end EntityQuery.Query

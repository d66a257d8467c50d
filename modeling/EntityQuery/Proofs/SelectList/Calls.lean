import EntityQuery.Proofs.SelectList.Literals
import EntityQuery.Proofs.Resolution.SelectClause
import EntityQuery.Proofs.Sample
import EntityQuery.Proofs.Text.Pieces

/-!
# Calls in a select list

The arguments of a call are taken apart at all commas, those in literals included. Empty pieces are
left out, pieces that look like fields are resolved, all others are copied, and the function's name
is put in lower case. What comes of a call is its text changed outside literals
(`Replaced.rewrites`) if this happens to no piece of a literal, and no path from a written name is
left in it if every such path begins its piece (`selectItem_call_keeps`).
-/

set_option autoImplicit false

namespace EntityQuery

open Registry
open Query (afterText afterChar isQuote InOrder Rewrites)

namespace Query

/-! ## Pieces of a call -/

/-- A piece of a text with the quotation mark that is open where it starts. -/
structure Piece where
  open_ : Option Char
  text : List Char
  deriving DecidableEq, Repr

/-- Texts with commas between them as pieces of the whole. A comma opens and closes nothing. -/
def piecesFrom : Option Char → List (List Char) → List Piece
  | _, [] => []
  | open_, text :: rest => ⟨open_, text⟩ :: piecesFrom (afterText open_ text) rest

/-- Whether a part of a literal is in a piece, or a whole one. -/
def Piece.hasLiteral (piece : Piece) : Bool :=
  piece.open_.isSome || piece.text.any isQuote

/-- A character of a name or of a path. -/
def isPathChar (c : Char) : Bool :=
  Text.isLetterOrNumeral c || c == '_' || c == '.'

/-- The words of a text outside its literals, which are the longest runs of characters of paths. The
first one, which may be empty as others may, is at the start of the text. -/
def wordsFrom : Option Char → List Char → List (List Char)
  | _, [] => [[]]
  | open_, c :: rest =>
    if open_.isNone && isPathChar c then inFront c (wordsFrom none rest)
    else [] :: wordsFrom (afterChar open_ c) rest

/-- The name of the function that an item calls. -/
def callName (item : List Char) : List Char :=
  item.takeWhile (· ≠ '(')

/-- What stands between the parentheses of a call. -/
def callInner (item : List Char) : List Char :=
  (item.dropWhile (· ≠ '(')).tail.dropLast

/-- The pieces between the commas of a call, those in literals included. -/
def callPieces (item : List Char) : List Piece :=
  piecesFrom (afterText none (callName item ++ ['('])) (Text.splitChars ',' (callInner item))

/-- A text with an opening parenthesis and a closing one at its end is a name and, in parentheses,
what stands between them. -/
theorem eq_callName_append {chars : List Char} (isCall : '(' ∈ chars)
    (closes : chars.getLast? = some ')') :
    chars = callName chars ++ '(' :: (callInner chars ++ [')']) := by
  obtain ⟨afterOpening, whole, opening⟩ := Text.exists_of_mem isCall
  have last : ')' ∈ afterOpening.getLast? := by
    rw [whole, List.getLast?_append_of_ne_nil _ (List.cons_ne_nil _ _)] at closes
    cases afterOpening with
    | nil => cases closes
    | cons next rest => exact closes
  have inner := List.dropLast_append_getLast? ')' last
  rw [callInner, opening, List.tail_cons, inner]
  exact whole

/-- Joining is the library's, with the separator as a text. -/
theorem joinChars_eq_intercalate (separator : Char) (texts : List (List Char)) :
    Text.joinChars separator texts = [separator].intercalate texts := by
  induction texts with
  | nil => rfl
  | cons text rest ih =>
      cases rest with
      | nil => simp [Text.joinChars]
      | cons next more =>
          rw [Text.joinChars, ih, List.intercalate_cons_cons, List.append_assoc]; rfl

/-- A text with a path at its start has the form of a path. -/
theorem isPath_of_takeWhile {chosen : Char → Bool} {text : List Char}
    (isPathAtStart : isPath (text.takeWhile chosen) = true) : isPath text = true := by
  have whole := (text.takeWhile_append_dropWhile (p := chosen)).symm
  generalize text.takeWhile chosen = word at isPathAtStart whole
  rw [isPath, Bool.and_eq_true, List.contains_iff_mem] at isPathAtStart
  obtain ⟨dot, head⟩ := isPathAtStart
  have same : text.takeWhile (· ≠ '.') = word.takeWhile (· ≠ '.') := by
    rw [whole, List.takeWhile_append, if_neg]
    intro complete
    have all := List.takeWhile_eq_self_iff.mp ((List.takeWhile_prefix _).eq_of_length complete)
    exact absurd (all '.' dot) (by decide)
  rw [isPath, same, Bool.and_eq_true, List.contains_iff_mem, whole]
  exact ⟨List.mem_append_left _ dot, head⟩

end Query

open Query (Piece)

namespace Aliases

/-- A word is a path from a written name. -/
def isPathFromName (aliases : Aliases) (word : List Char) : Bool :=
  Query.isPath word && (aliases.resolve? (Path.ofText (String.ofList word)).head).isSome

/-- A path from a written name is in a piece, outside literals. -/
def hasPath (aliases : Aliases) (piece : Piece) : Bool :=
  (Query.wordsFrom piece.open_ piece.text).any aliases.isPathFromName

/-- A piece begins with a path from a written name. -/
def beginsWithPath (aliases : Aliases) (piece : Piece) : Bool :=
  piece.open_.isNone && aliases.isPathFromName (piece.text.takeWhile Query.isPathChar)

/-- A text looks like a field. -/
def looksLikeField (aliases : Aliases) (text : List Char) : Bool :=
  Query.isPath text || (aliases.resolve? (String.ofList text)).isSome

/-- In a call, the commas keep the literals and the paths apart: the name of the function has none
of them, no piece of a literal is empty or looks like a field, and a path from a written name is at
the start of its piece. -/
structure KeepsApart (aliases : Aliases) (item : List Char) : Prop where
  name : (Query.callName item).any isQuote = false
  namePath : aliases.hasPath ⟨none, Text.lowercase (Query.callName item)⟩ = false
  literal : ∀ piece ∈ Query.callPieces item, piece.hasLiteral = true →
    piece.text ≠ [] ∧ aliases.looksLikeField piece.text = false
  path : ∀ piece ∈ Query.callPieces item, aliases.hasPath piece = true →
    aliases.beginsWithPath piece = true

theorem looksLikeField_of_beginsWithPath {aliases : Aliases} {piece : Piece}
    (begins : aliases.beginsWithPath piece = true) : aliases.looksLikeField piece.text = true := by
  rw [beginsWithPath, isPathFromName, Bool.and_eq_true, Bool.and_eq_true] at begins
  rw [looksLikeField, Query.isPath_of_takeWhile begins.2.1, Bool.true_or]

end Aliases

/-! ## Replaced pieces -/

/-- Texts in the place of the pieces of a text: an empty piece may be left out between literals, and
any other is changed outside its literals. -/
inductive Replaced : Option Char → List (List Char) → List (List Char) → Prop where
  | nil (open_ : Option Char) : Replaced open_ [] []
  | leftOut {pieces texts : List (List Char)} (others : Replaced none pieces texts) :
      Replaced none ([] :: pieces) texts
  | shown {open_ : Option Char} {piece text : List Char} {pieces texts : List (List Char)}
      (one : Rewrites open_ piece text) (others : Replaced (afterText open_ piece) pieces texts) :
      Replaced open_ (piece :: pieces) (text :: texts)

theorem Replaced.eq_nil {open_ : Option Char} {texts : List (List Char)}
    (replaced : Replaced open_ [] texts) : texts = [] := by
  cases replaced with
  | nil => rfl

/-- Where all pieces are left out, no literal is open. -/
theorem Replaced.open_eq_none {open_ : Option Char} {piece : List Char} {pieces : List (List Char)}
    (replaced : Replaced open_ (piece :: pieces) []) : open_ = none := by
  cases replaced with
  | leftOut => rfl

/-- **Texts in the place of pieces are a change of the whole outside its literals.** -/
theorem Replaced.rewrites {open_ : Option Char} {pieces texts : List (List Char)}
    (replaced : Replaced open_ pieces texts) (marks : ∀ mark ∈ open_, isQuote mark = true) :
    Rewrites open_ (Text.joinChars ',' pieces) (Text.joinChars ',' texts) := by
  induction replaced with
  | nil open_ => exact .done open_
  | @leftOut pieces texts others ih =>
      cases pieces with
      | nil => exact ih marks
      | cons next rest => exact .leaveOut rfl (ih marks)
  | @shown open_ piece text pieces texts one others ih =>
      have marksAfter := Query.isQuote_of_afterText marks piece
      have onwards := ih marksAfter
      cases pieces with
      | nil =>
          cases others.eq_nil
          exact one
      | cons following rest =>
          cases texts with
          | nil =>
              have closed := others.open_eq_none
              have comma : Rewrites (afterText open_ piece)
                  (',' :: Text.joinChars ',' (following :: rest)) [] := by
                rw [closed] at onwards ⊢
                exact .leaveOut rfl onwards
              have both := one.append comma
              rwa [List.append_nil] at both
          | cons next more =>
              have comma := Query.afterChar_of_not_isQuote marksAfter (rfl : isQuote ',' = false)
              exact one.append (.keep ',' (comma.symm ▸ onwards))

/-- The aliases of a query for the tags alone, under a written name. -/
def Sample.tagAliases : Aliases :=
  (Aliases.empty.bind "Tag" (some "t")).2

namespace Schema

variable {schema : Schema}

/-! ## Arguments -/

/-- What a piece of a call becomes: the column that it stands for, or itself, and then no path from
a written name is in it. -/
inductive Becomes (schema : Schema) (aliases : Aliases) : Piece → Sql.Expr → Prop where
  | column {piece : Piece} {reference : Sql.ColumnRef} {current later : Aliases}
      (resolved : schema.field .identifier (String.ofList piece.text) current =
        .ok (.column reference, later)) : Becomes schema aliases piece (.column reference)
  | copied {piece : Piece} (noPath : aliases.hasPath piece = false) :
      Becomes schema aliases piece (.raw (String.ofList piece.text))

/-- An argument is a change of its piece outside literals, and has no path from a written name left.
-/
theorem argument_becomes {aliases current later : Aliases}
    (same : ∀ written, current.resolve? written = aliases.resolve? written) {piece : Piece}
    (literal : piece.hasLiteral = true → aliases.looksLikeField piece.text = false)
    (path : aliases.hasPath piece = true → aliases.beginsWithPath piece = true) {expr : Sql.Expr}
    (succeeds : schema.argument (String.ofList piece.text) current = .ok (expr, later)) :
    schema.Becomes aliases piece expr ∧ Rewrites piece.open_ piece.text expr.render.toList := by
  have looks : (Query.isPath (String.ofList piece.text).toList ||
      (current.resolve? (String.ofList piece.text)).isSome) =
        aliases.looksLikeField piece.text := by
    rw [same, String.toList_ofList, Aliases.looksLikeField]
  rw [argument, looks] at succeeds
  split at succeeds
  · next isField =>
    have noLiteral : piece.hasLiteral = false := by
      by_contra hasLiteral
      rw [literal (Bool.not_eq_false _ ▸ hasLiteral)] at isField
      cases isField
    obtain ⟨reference, rfl⟩ := exists_column_of_field succeeds
    refine ⟨.column succeeds, ?_⟩
    rw [Piece.hasLiteral, Bool.or_eq_false_iff, Option.isSome_eq_false_iff,
      Option.isNone_iff_eq_none]
      at noLiteral
    rw [noLiteral.1]
    exact .replace noLiteral.2 _
  · next notField =>
    have noPath : aliases.hasPath piece = false := by
      by_contra hasPath
      have begins := path (Bool.not_eq_false _ ▸ hasPath)
      exact notField (Aliases.looksLikeField_of_beginsWithPath begins)
    cases succeeds
    refine ⟨.copied noPath, ?_⟩
    rw [Sql.Expr.render, String.toList_ofList]
    exact .copy _ _

/-- **The arguments of a call stand in the place of its pieces.** -/
theorem arguments_become {aliases current later : Aliases}
    (same : ∀ written, current.resolve? written = aliases.resolve? written) {open_ : Option Char}
    {texts : List (List Char)}
    (literal : ∀ piece ∈ Query.piecesFrom open_ texts, piece.hasLiteral = true →
      piece.text ≠ [] ∧ aliases.looksLikeField piece.text = false)
    (path : ∀ piece ∈ Query.piecesFrom open_ texts, aliases.hasPath piece = true →
      aliases.beginsWithPath piece = true) {exprs : List Sql.Expr}
    (succeeds : schema.arguments
      ((texts.filter fun text => !text.isEmpty).map String.ofList) current =
      .ok (exprs, later)) :
    List.Forall₂ (schema.Becomes aliases)
        ((Query.piecesFrom open_ texts).filter fun piece => !piece.text.isEmpty) exprs ∧
      Replaced open_ texts (exprs.map fun expr => expr.render.toList) := by
  induction texts generalizing open_ current exprs with
  | nil =>
      cases succeeds
      exact ⟨.nil, .nil open_⟩
  | cons text rest ih =>
      have one := literal ⟨open_, text⟩ (List.mem_cons_self ..)
      have literalRest := fun piece member => literal piece (List.mem_cons_of_mem _ member)
      have pathRest := fun piece member => path piece (List.mem_cons_of_mem _ member)
      cases text with
      | nil =>
          cases open_ with
          | some quote => exact absurd rfl (one rfl).1
          | none =>
              obtain ⟨becomes, replaced⟩ := ih same literalRest pathRest succeeds
              exact ⟨becomes, .leftOut replaced⟩
      | cons c others =>
          obtain ⟨expr, middle, more, first, onwards, rfl⟩ := arguments_cons_eq_ok_iff.mp succeeds
          have kept := fun written =>
            ((argument_keeps first).resolve?_eq written).trans (same written)
          have pathFirst := path ⟨open_, c :: others⟩ (List.mem_cons_self ..)
          obtain ⟨becomes, rewrites⟩ :=
            argument_becomes same (fun hasLiteral => (one hasLiteral).2) pathFirst first
          obtain ⟨becomesRest, replaced⟩ := ih kept literalRest pathRest onwards
          exact ⟨.cons becomes becomesRest, .shown rewrites replaced⟩

/-! ## Calls -/

/-- An item with an opening parenthesis that is accepted is a call, which is closed at its end. -/
theorem exists_call_of_selectItem {item : String} {aliases later : Aliases} {exprs : List Sql.Expr}
    (isCall : '(' ∈ item.toList) (accepted : schema.selectItem item aliases = .ok (exprs, later)) :
    item.toList.getLast? = some ')' ∧
      ∃ arguments,
        exprs = [.call (String.ofList (Text.lowercase (Query.callName item.toList))) arguments] ∧
          schema.arguments (Query.argumentsOf (Query.callInner item.toList)) aliases =
            .ok (arguments, later) := by
  cases opening : item.toList.dropWhile (· ≠ '(') with
  | nil =>
      have noneOpens := List.dropWhile_eq_nil_iff.mp opening '(' isCall
      exact absurd noneOpens (by decide)
  | cons first afterOpening =>
      cases selectItem_eq_ok_iff.mp accepted with
      | @call _ _ arguments _ read resolved =>
          simp only [Query.SelectItem.ofText?, opening, Option.ite_none_right_eq_some] at read
          obtain ⟨⟨closes, _⟩, same⟩ := read
          cases same
          rw [Query.callInner, opening]
          refine ⟨closes, arguments, ?_, resolved⟩
          rw [String.toList_ofList]
          rfl
      | column read | entity read =>
          simp only [Query.SelectItem.ofText?, opening, Option.ite_none_right_eq_some] at read
          cases read.2

/-- The text of a call. -/
theorem render_call (function : String) (arguments : List Sql.Expr) :
    (Sql.Expr.call function arguments).render.toList =
      function.toList ++
        '(' :: (Text.joinChars ',' (arguments.map fun expr => expr.render.toList) ++ [')']) := by
  simp only [Sql.Expr.render, Sql.Expr.renderEach_eq_map, String.toList_append,
    String.toList_intercalate, Query.joinChars_eq_intercalate, List.map_map, List.append_assoc]
  rfl

/-- **A call in a select list keeps its literals, and no path from a written name is left in it**,
if its commas keep them apart. -/
theorem selectItem_call_keeps (schema : Schema) (item : String) (aliases later : Aliases)
    (exprs : List Sql.Expr) (isCall : '(' ∈ item.toList)
    (accepted : schema.selectItem item aliases = .ok (exprs, later))
    (apart : aliases.KeepsApart item.toList) :
    ∃ function arguments, exprs = [.call function arguments] ∧
      InOrder (Query.literals item.toList) (Sql.Expr.call function arguments).render.toList ∧
      aliases.hasPath ⟨none, function.toList⟩ = false ∧
      List.Forall₂ (schema.Becomes aliases)
        ((Query.callPieces item.toList).filter fun piece => !piece.text.isEmpty) arguments := by
  obtain ⟨closes, arguments, rfl, resolved⟩ := exists_call_of_selectItem isCall accepted
  obtain ⟨name, namePath, literal, path⟩ := apart
  have atName : afterText none (Query.callName item.toList) = none := Query.afterText_none name
  have atOpening : afterText none (Query.callName item.toList ++ ['(']) = none := by
    rw [Query.afterText_append, atName]
    rfl
  rw [Query.callPieces, atOpening] at literal path ⊢
  obtain ⟨becomes, replaced⟩ := arguments_become (fun _ => rfl) literal path resolved
  refine ⟨_, arguments, rfl, ?_, ?_, becomes⟩
  · have inner := replaced.rewrites Query.isQuote_of_none
    rw [Text.joinChars_splitChars] at inner
    have between : Rewrites none ('(' :: (Query.callInner item.toList ++ [')'])) _ :=
      .keep '(' (inner.append (.copy _ [')']))
    have changed := (Rewrites.replace name (Text.lowercase (Query.callName item.toList))).append
      (atName.symm ▸ between)
    rw [← Query.eq_callName_append isCall closes] at changed
    rw [render_call, String.toList_ofList]
    exact changed.inOrder
  · rw [String.toList_ofList]
    exact namePath

/-- A call with a comma in a literal, and a path at the start of its piece. -/
theorem selectItem_call_keeps_concat :
    ∃ exprs later, Sample.schema.selectItem "Concat('a,b',t.label,*)" Sample.tagAliases =
        .ok (exprs, later) ∧
      exprs.map Sql.Expr.render = ["concat('a,b',t0.label,*)"] ∧
      ∃ function arguments, exprs = [.call function arguments] ∧
        InOrder (Query.literals "Concat('a,b',t.label,*)".toList)
          (Sql.Expr.call function arguments).render.toList ∧
        Sample.tagAliases.hasPath ⟨none, function.toList⟩ = false ∧
        List.Forall₂ (Sample.schema.Becomes Sample.tagAliases)
          ((Query.callPieces "Concat('a,b',t.label,*)".toList).filter fun piece =>
            !piece.text.isEmpty) arguments := by
  have shown : (Sample.schema.selectItem "Concat('a,b',t.label,*)" Sample.tagAliases).toOption.map
      (fun result => result.1.map Sql.Expr.render) = some ["concat('a,b',t0.label,*)"] := by
    decide +kernel
  obtain ⟨⟨exprs, later⟩, accepted, text⟩ := exists_ok_of_shown shown
  have apart : Sample.tagAliases.KeepsApart "Concat('a,b',t.label,*)".toList :=
    ⟨by decide +kernel, by decide +kernel, by decide +kernel, by decide +kernel⟩
  exact ⟨exprs, later, accepted, text,
    selectItem_call_keeps Sample.schema _ _ later exprs (by decide +kernel) accepted apart⟩

/-- An empty piece of a literal is left out, and so the literal is altered; a path behind a number
is left as it is. -/
theorem selectItem_call_alters :
    (∃ exprs later, Sample.schema.selectItem "concat('a,,b')" Sample.tagAliases =
      .ok (exprs, later) ∧
      exprs.map Sql.Expr.render = ["concat('a,b')"] ∧
      ¬ InOrder (Query.literals "concat('a,,b')".toList) "concat('a,b')".toList) ∧
    ∃ exprs later, Sample.schema.selectItem "concat(1+t.label)" Sample.tagAliases =
      .ok (exprs, later) ∧
      exprs.map Sql.Expr.render = ["concat(1+t.label)"] ∧
      Sample.tagAliases.hasPath ⟨none, "concat(1+t.label)".toList⟩ = true := by
  have literal : (Sample.schema.selectItem "concat('a,,b')" Sample.tagAliases).toOption.map
      (fun result => result.1.map Sql.Expr.render) = some ["concat('a,b')"] := by
    decide +kernel
  have path : (Sample.schema.selectItem "concat(1+t.label)" Sample.tagAliases).toOption.map
      (fun result => result.1.map Sql.Expr.render) = some ["concat(1+t.label)"] := by
    decide +kernel
  obtain ⟨⟨exprs, later⟩, accepted, text⟩ := exists_ok_of_shown literal
  obtain ⟨⟨others, last⟩, acceptedToo, unresolved⟩ := exists_ok_of_shown path
  refine ⟨⟨exprs, later, accepted, text, fun inOrder => ?_⟩, others, last, acceptedToo, unresolved,
    by decide +kernel⟩
  have isInfix := inOrder.isInfix "'a,,b'".toList (by decide +kernel)
  exact absurd isInfix (by decide +kernel)

end Schema

end EntityQuery

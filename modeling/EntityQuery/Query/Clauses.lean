import EntityQuery.Query.Literal

/-!
# Clauses of a query

A query in normal form has one space for every run of blanks outside literals, and none at its ends.
Its clauses are found in the normal form: the keywords are the first occurrences outside literals,
in any case, each later than the start of the one before. Every clause that is there has some text.
-/

set_option autoImplicit false

namespace EntityQuery.Query

open Text (isBlank trimBlanks)

/-- The clauses of a query. -/
inductive Clause where
  | select
  | table
  | filter
  | order
  deriving DecidableEq, Repr

/-- The keyword of a clause. -/
def Clause.keyword : Clause → String
  | .select => "select"
  | .table => "from"
  | .filter => "where"
  | .order => "order by"

/-- Why a text cannot be taken apart. -/
inductive TextError where
  | missingClause (clause : Clause)
  | emptyClause (clause : Clause)
  /-- A literal is not closed; the number counts the octets before it. -/
  | unterminatedLiteral (offset : Nat)
  deriving DecidableEq, Repr

/-- The words for a text that cannot be taken apart. -/
def TextError.message : TextError → String
  | .missingClause clause => "Missing '" ++ clause.keyword ++ "' clause"
  | .emptyClause clause => "Empty " ++ clause.keyword ++ " clause"
  | .unterminatedLiteral offset =>
    "Unterminated string literal starting at offset " ++ toString offset

/-! ## Normal form -/

/-- What is written with one more character, the last one first. Of the blanks outside literals one
is written, as a space, and none if nothing is written before. -/
def write (written : List Char) (open_ : Option Char) (c : Char) : List Char :=
  if open_.isNone && isBlank c then
    if written.isEmpty || written.head? == some ' ' then written else ' ' :: written
  else c :: written

/-- What is written for a text, and the literal that is open after it, with its place. -/
def collapse (written : List Char) (open_ : Option (Char × Nat)) (place : Nat) :
    List Char → List Char × Option (Char × Nat)
  | [] => (written, open_)
  | c :: rest =>
    collapse (write written (open_.map (·.1)) c) (afterCharAt place open_ c)
      (place + c.utf8Size) rest

/-- The normal form of a text whose literals are closed: what is written for it, without blanks at
the end. -/
def normalize (text : String) : Except TextError String :=
  match collapse [] none 0 text.toList with
  | (_, some (_, start)) => .error (.unterminatedLiteral start)
  | (written, none) => .ok (String.ofList (written.dropWhile isBlank).reverse)

/-! ## Splitting -/

/-- The texts of the clauses. -/
structure Clauses where
  select : String
  table : String
  filter? : Option String
  order? : Option String
  deriving DecidableEq, Repr

/-- The place of the first occurrence of a keyword outside literals that is not before `from_`, in a
text that starts at `place` with a quotation mark open. -/
def findKeywordFrom? (keyword : List Char) (from_ : Nat) :
    Option Char → Nat → List Char → Option Nat
  | _, _, [] => none
  | some quote, place, c :: rest =>
    findKeywordFrom? keyword from_ (afterChar (some quote) c) (place + 1) rest
  | none, place, c :: rest =>
    if isQuote c = false ∧ from_ ≤ place ∧ keyword.isPrefixOf (c :: rest) then some place
    else findKeywordFrom? keyword from_ (afterChar none c) (place + 1) rest

/-- The place of the first occurrence of a keyword outside literals that is not before `from_`. -/
def findKeyword? (keyword : String) (from_ : Nat) (text : List Char) : Option Nat :=
  findKeywordFrom? keyword.toList from_ none 0 text

/-- The text from one place up to another without blanks at its ends. -/
def between (text : List Char) (first last : Nat) : String :=
  String.ofList (trimBlanks ((text.take last).drop first))

/-- The text of a clause, if it has some. -/
def nonempty (clause : Clause) (text : String) : Except TextError String :=
  if text.isEmpty then .error (.emptyClause clause) else .ok text

/-- The clauses of a text in normal form. The keywords are looked for with a space after the text,
so that one at its end is found. -/
def splitNormal (text : List Char) : Except TextError Clauses :=
  let lowered := text.map Char.toLower ++ [' ']
  if "select ".toList.isPrefixOf lowered then
    match findKeyword? " from " 0 lowered with
    | none => .error (.missingClause .table)
    | some table => do
      let filter? := findKeyword? " where " (table + 1) lowered
      let order? := findKeyword? " order by " (filter?.getD table + 1) lowered
      let last := text.length
      let select ← nonempty .select (between text 7 table)
      let source ← nonempty .table (between text (table + 6) ((filter?.or order?).getD last))
      let filter ← filter?.mapM fun place =>
        nonempty .filter (between text (place + 7) (order?.getD last))
      let order ← order?.mapM fun place => nonempty .order (between text (place + 10) last)
      return ⟨select, source, filter, order⟩
  else .error (.missingClause .select)

/-- The clauses of a query. -/
def splitClauses (text : String) : Except TextError Clauses := do
  let normal ← normalize text
  splitNormal normal.toList

end EntityQuery.Query

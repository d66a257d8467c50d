import EntityQuery.Query.Clauses
import EntityQuery.Text.Letter
import EntityQuery.Text.Word

/-!
# Tokens of a clause

The tokens of a clause are its words, literals and punctuation marks, each with its place in octets.
Blanks separate tokens; a mark ends a word wherever it stands; a literal is never taken apart, and
its own quotation mark stands in it doubled. Which marks there are depends on the clause, and of
several that match the first listed is taken, which is the longest.
-/

set_option autoImplicit false

namespace EntityQuery.Query

open Text (isBlank isLetter isLetterOrNumeral octets)

/-! ## Kinds and marks -/

/-- What a token is. -/
inductive TokenKind where
  /-- A bare word: the name of an entity or a function, an alias, a keyword. -/
  | word
  /-- A word with a dot after a name, such as `a.area.name`. -/
  | path
  /-- A word that starts with a digit. -/
  | number
  /-- A literal with its quotation marks. -/
  | literal
  /-- A punctuation mark. -/
  | mark
  deriving DecidableEq, Repr

/-- The word for a kind of token. -/
def TokenKind.name : TokenKind → String
  | .word => "word"
  | .path => "path"
  | .number => "number"
  | .literal => "literal"
  | .mark => "punctuation"

/-- A token with the places where it starts and ends, in octets from the start of its text. -/
structure Token where
  kind : TokenKind
  lexeme : String
  first : Nat
  last : Nat
  deriving DecidableEq, Repr

/-- Whether a token is a keyword, in any case. -/
def Token.isKeyword (token : Token) (keyword : String) : Bool :=
  token.kind == .word && Text.sameIgnoringCase token.lexeme keyword

/-- Whether a token is a punctuation mark. -/
def Token.isMark (token : Token) (mark : String) : Bool :=
  token.kind == .mark && token.lexeme == mark

/-- The sets of punctuation marks. -/
inductive MarkSet where
  | table
  | filter
  | order
  deriving DecidableEq, Repr

/-- The marks of a set, a mark before those that it starts with. -/
def MarkSet.marks : MarkSet → List (List Char)
  | .table => [[','], ['=']]
  | .filter =>
    [['>', '='], ['<', '='], ['<', '>'], ['!', '='], [','], ['='], ['>'], ['<'], ['+'], ['-'],
      ['*'], ['/'], ['('], [')']]
  | .order => [['('], [')'], [',']]

/-- The mark that a text starts with. -/
def MarkSet.markAt? (marks : MarkSet) (text : List Char) : Option (List Char) :=
  marks.marks.find? fun mark => mark.isPrefixOf text

theorem MarkSet.ne_nil_of_mem {marks : MarkSet} {mark : List Char} (mem : mark ∈ marks.marks) :
    mark ≠ [] := by
  cases marks <;> revert mark <;> decide

/-- Whether a word is a name followed by a dot. -/
def isPath (word : List Char) : Bool :=
  word.contains '.' &&
    match word.takeWhile (· ≠ '.') with
    | [] => false
    | c :: rest => (isLetter c || c == '_') && rest.all fun c => isLetterOrNumeral c || c == '_'

/-- The kind of a word. -/
def kindOfWord (word : List Char) : TokenKind :=
  if word.head?.any Char.isDigit then .number
  else if isPath word then .path
  else .word

/-! ## Tokens of a text -/

/-- The rest of a literal up to its closing quotation mark, and what follows it. -/
def literalRest? (quote : Char) : List Char → Option (List Char × List Char)
  | [] => none
  | c :: rest =>
    if c = quote then
      match rest with
      | [] => some ([quote], [])
      | next :: after =>
        if next = quote then
          (literalRest? quote after).map fun (body, after) => (quote :: quote :: body, after)
        else some ([quote], next :: after)
    else (literalRest? quote rest).map fun (body, after) => (c :: body, after)

/-- Whether a word ends before a text. -/
def endsWord (marks : MarkSet) (text : List Char) : Bool :=
  match text with
  | [] => true
  | c :: _ => isBlank c || isQuote c || (marks.markAt? text).isSome

/-- The rest of a word, and what follows it. -/
def wordRest (marks : MarkSet) : List Char → List Char × List Char
  | [] => ([], [])
  | c :: rest =>
    if endsWord marks (c :: rest) then ([], c :: rest)
    else
      let (word, after) := wordRest marks rest
      (c :: word, after)

/-- The token of a kind that starts at a place. -/
def Token.at (kind : TokenKind) (lexeme : List Char) (place : Nat) : Token :=
  ⟨kind, String.ofList lexeme, place, place + octets lexeme⟩

theorem length_literalRest? {quote : Char} {text body after : List Char}
    (found : literalRest? quote text = some (body, after)) : after.length < text.length := by
  fun_induction literalRest? quote text generalizing body after with
  | case1 => cases found
  | case2 =>
    cases found
    simp
  | case3 rest ih =>
    obtain ⟨⟨inner, left⟩, inside, same⟩ := Option.map_eq_some_iff.1 found
    cases same
    have := ih inside
    simp only [List.length_cons]
    omega
  | case4 next after' differs =>
    cases found
    simp
  | case5 c rest differs ih =>
    obtain ⟨⟨inner, left⟩, inside, same⟩ := Option.map_eq_some_iff.1 found
    cases same
    have := ih inside
    simp only [List.length_cons]
    omega

theorem length_wordRest (marks : MarkSet) (text : List Char) :
    (wordRest marks text).2.length ≤ text.length := by
  induction text with
  | nil => simp [wordRest]
  | cons c rest ih =>
    unfold wordRest
    split
    · simp
    · simp only [List.length_cons]
      omega

/-- The tokens of a text that starts at a place. -/
def tokensFrom (marks : MarkSet) (place : Nat) (text : List Char) :
    Except TextError (List Token) :=
  match text with
  | [] => .ok []
  | c :: rest =>
    if isBlank c then tokensFrom marks (place + c.utf8Size) rest
    else if isQuote c then
      match found : literalRest? c rest with
      | none => .error (.unterminatedLiteral place)
      | some (body, after) =>
        have := length_literalRest? found
        (Token.at .literal (c :: body) place :: ·)
          <$> tokensFrom marks (place + octets (c :: body)) after
    else
      match marks.markAt? (c :: rest) with
      | some mark =>
        (Token.at .mark mark place :: ·)
          <$> tokensFrom marks (place + octets mark) (rest.drop (mark.length - 1))
      | none =>
        have := length_wordRest marks rest
        let word := c :: (wordRest marks rest).1
        (Token.at (kindOfWord word) word place :: ·)
          <$> tokensFrom marks (place + octets word) (wordRest marks rest).2
termination_by text.length
decreasing_by
  all_goals simp_wf
  all_goals omega

/-- The tokens of a text. -/
def tokenize (marks : MarkSet) (text : String) : Except TextError (List Token) :=
  tokensFrom marks 0 text.toList

end EntityQuery.Query

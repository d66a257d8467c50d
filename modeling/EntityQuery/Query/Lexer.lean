import EntityQuery.Query.Token

/-!
# Lexers

A lexer reads texts one after another with one set of punctuation marks. It goes through a text
once and remembers the word that it is in: a blank, a quotation mark, a punctuation mark and the end
of the text end the word. Its tokens are put into a buffer, which is cleared before each text. A
text with a literal that is not closed leaves the tokens in front of the literal there.
-/

set_option autoImplicit false

namespace EntityQuery.Query

open Text (isBlank octets)

/-- A set of marks, and the tokens of the text that was read last. -/
structure Lexer where
  marks : MarkSet
  buffer : List Token
  deriving DecidableEq, Repr

namespace Lexer

/-- A lexer that has read nothing. -/
def new (marks : MarkSet) : Lexer :=
  ⟨marks, []⟩

/-- The lexer with one more token in its buffer. -/
def add (lexer : Lexer) (kind : TokenKind) (lexeme : List Char) (place : Nat) : Lexer :=
  { lexer with buffer := lexer.buffer ++ [Token.at kind lexeme place] }

/-- The lexer at the end of a word, if it is in one. A word is known by the place where it starts
and its characters. -/
def endWord (lexer : Lexer) : Option (Nat × List Char) → Lexer
  | none => lexer
  | some (first, word) => lexer.add (kindOfWord word) word first

/-- The word with one more character, which stands at a place. -/
def continueWord (word? : Option (Nat × List Char)) (place : Nat) (c : Char) : Nat × List Char :=
  match word? with
  | none => (place, [c])
  | some (first, word) => (first, word ++ [c])

/-- The lexer after the rest of a text, which starts at a place and perhaps in a word, and what is
wrong with the text. -/
def scan (lexer : Lexer) (word? : Option (Nat × List Char)) (place : Nat) (text : List Char) :
    Option TextError × Lexer :=
  match text with
  | [] => (none, lexer.endWord word?)
  | c :: rest =>
    if isBlank c then scan (lexer.endWord word?) none (place + c.utf8Size) rest
    else if isQuote c then
      match found : literalRest? c rest with
      | none => (some (.unterminatedLiteral place), lexer.endWord word?)
      | some (body, after) =>
        have := length_literalRest? found
        scan ((lexer.endWord word?).add .literal (c :: body) place) none
          (place + octets (c :: body)) after
    else
      match lexer.marks.markAt? (c :: rest) with
      | some mark =>
        scan ((lexer.endWord word?).add .mark mark place) none (place + octets mark)
          (rest.drop (mark.length - 1))
      | none => scan lexer (some (continueWord word? place c)) (place + c.utf8Size) rest
termination_by text.length
decreasing_by
  all_goals simp_wf
  all_goals omega

/-- The tokens of a text, and the lexer after it. -/
def read (lexer : Lexer) (text : String) : Except TextError (List Token) × Lexer :=
  match scan { lexer with buffer := [] } none 0 text.toList with
  | (none, after) => (.ok after.buffer, after)
  | (some problem, after) => (.error problem, after)

/-- What a lexer answers to texts one after another, and the lexer after them. -/
def readAll (lexer : Lexer) : List String → List (Except TextError (List Token)) × Lexer
  | [] => ([], lexer)
  | text :: rest =>
    let (outcome, after) := lexer.read text
    let (outcomes, last) := after.readAll rest
    (outcome :: outcomes, last)

@[simp] theorem new_marks (marks : MarkSet) : (new marks).marks = marks := rfl

@[simp] theorem add_marks (lexer : Lexer) (kind : TokenKind) (lexeme : List Char) (place : Nat) :
    (lexer.add kind lexeme place).marks = lexer.marks := rfl

@[simp] theorem endWord_marks (lexer : Lexer) (word? : Option (Nat × List Char)) :
    (lexer.endWord word?).marks = lexer.marks := by
  cases word? <;> rfl

@[simp] theorem endWord_none (lexer : Lexer) : lexer.endWord none = lexer := rfl

end Lexer

end EntityQuery.Query

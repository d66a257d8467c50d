/-!
# White space

The characters that separate words in a query: the twenty-five code points with the Unicode property
`White_Space`. The space of ASCII is one of them, and a quotation mark or a letter is none.
-/

set_option autoImplicit false

namespace EntityQuery.Text

/-- A character with the Unicode property `White_Space`. -/
def isBlank (c : Char) : Bool :=
  let n := c.toNat
  (0x09 ≤ n && n ≤ 0x0D) || n == 0x20 || n == 0x85 || n == 0xA0 || n == 0x1680
    || (0x2000 ≤ n && n ≤ 0x200A) || n == 0x2028 || n == 0x2029 || n == 0x202F
    || n == 0x205F || n == 0x3000

theorem isBlank_space : isBlank ' ' = true := by decide

/-- The text without blanks at either end. -/
def trimBlanks (text : List Char) : List Char :=
  ((text.dropWhile isBlank).reverse.dropWhile isBlank).reverse

/-- The text without leading blanks. -/
def skipBlanks (text : List Char) : List Char :=
  text.dropWhile isBlank

end EntityQuery.Text

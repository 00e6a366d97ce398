import FuzzyAlgebra.Text.Order

/-!
# White space

Two readings of white space: the property of the character set, for the characters around a number,
and a wider one around a decimal, which takes in the four information separators.
-/

namespace FuzzyAlgebra.Text

def isWhiteSpace (c : Char) : Bool :=
  inRanges [(9, 13), (32, 32), (133, 133), (160, 160), (5760, 5760), (8192, 8202), (8232, 8233),
    (8239, 8239), (8287, 8287), (12288, 12288)] c.toNat

def isBlank (c : Char) : Bool := isWhiteSpace c || inRanges [(28, 31)] c.toNat

/-- A text without the leading and trailing characters that pass the test. -/
def trimBoth (test : Char → Bool) (cs : List Char) : List Char :=
  ((cs.dropWhile test).reverse.dropWhile test).reverse

end FuzzyAlgebra.Text

/-!
# Readers

A reader takes something from the front of a text and returns it with what is left.
-/

namespace FuzzyAlgebra.Text

/-- A reader of something at the front of a text; `none` if it is not there. -/
abbrev Reader (α : Type) : Type := List Char → Option (α × List Char)

def expect (c : Char) : Reader Unit
  | d :: cs => if d = c then some ((), cs) else none
  | [] => none

def isSpaceOrTab (c : Char) : Bool := c = ' ' || c = '\t'

end FuzzyAlgebra.Text

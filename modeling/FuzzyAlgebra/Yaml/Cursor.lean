import FuzzyAlgebra.Mishap
import FuzzyAlgebra.Text.Order

/-!
# Reading positions

A cursor is what is left of a text, with the place that was reached: lines and columns are counted
because indentation has a meaning. Past the end of the text a cursor shows the character zero, which
no text may hold. Lines are ended by line feeds here, not by carriage returns.
-/

namespace FuzzyAlgebra.Yaml

/-- Why a text gives no value: it is not well formed, or one of its scalars has no value. -/
inductive Problem where
  | malformed
  | mishap (m : Mishap)

/-- Why no token can be read, and the place in the text where that shows. -/
structure Halt where
  problem : Problem
  index : Nat

def printableRanges : List (Nat × Nat) :=
  [(0x09, 0x0a), (0x0d, 0x0d), (0x20, 0x7e), (0x85, 0x85), (0xa0, 0xd7ff), (0xe000, 0xfffd),
    (0x10000, 0x10ffff)]

def isAcceptable (c : Char) : Bool := Text.inRanges printableRanges c.toNat

def endMark : Char := '\x00'

def byteOrderMark : Char := '\ufeff'

def isBreak (c : Char) : Bool := c = '\n' || c = '\x85' || c = '\u2028' || c = '\u2029'

def isBreakOrEnd (c : Char) : Bool := isBreak c || c = endMark

def isGap (c : Char) : Bool := isBreakOrEnd c || c = ' ' || c = '\t'

def breakText (c : Char) : Char := if c = '\x85' then '\n' else c

/-- A character of a name: a letter, a digit, a hyphen or an underscore. -/
def isNameChar (c : Char) : Bool := c.isAlphanum || c = '-' || c = '_'

def isOneOf (set : String) (c : Char) : Bool := set.toList.contains c

/-- What is left of a text, and the place that was reached. -/
structure Cursor where
  rest : List Char
  index : Nat
  line : Nat
  column : Nat

namespace Cursor

def start (cs : List Char) : Cursor := ⟨cs, 0, 0, 0⟩

def peekAt (c : Cursor) (k : Nat) : Char := (c.rest[k]?).getD endMark

def peek (c : Cursor) : Char := c.peekAt 0

/-- Reads nothing here: the text is not well formed, which the character some places ahead shows. -/
def refuseAt {α : Type} (c : Cursor) (k : Nat) : Except Halt α :=
  .error ⟨.malformed, c.index + k⟩

def refuse {α : Type} (c : Cursor) : Except Halt α := c.refuseAt 0

def mishap {α : Type} (c : Cursor) (m : Mishap) : Except Halt α := .error ⟨.mishap m, c.index⟩

def advance (c : Cursor) : Cursor :=
  match c.rest with
  | [] => c
  | x :: rest =>
    if isBreak x then ⟨rest, c.index + 1, c.line + 1, 0⟩
    else if x = byteOrderMark then ⟨rest, c.index + 1, c.line, c.column⟩
    else ⟨rest, c.index + 1, c.line, c.column + 1⟩

def advanceBy : Nat → Cursor → Cursor
  | 0, c => c
  | n + 1, c => advanceBy n c.advance

/-- The longest run of characters with a property, and the place after it. -/
def span (c : Cursor) (p : Char → Bool) : List Char × Cursor :=
  let run := c.rest.takeWhile p
  (run, c.advanceBy run.length)

def skip (c : Cursor) (p : Char → Bool) : Cursor := (c.span p).2

def skipSpaces (c : Cursor) : Cursor := c.skip (· = ' ')

/-- The end of a line, if the cursor is there, and the place after it. -/
def takeBreak (c : Cursor) : List Char × Cursor :=
  if isBreak c.peek then ([breakText c.peek], c.advance) else ([], c)

def skipLine (c : Cursor) : Cursor := c.skip fun x => !isBreak x

def skipComment (c : Cursor) : Cursor := if c.peek = '#' then c.skipLine else c

/-- Whether the cursor is at three of a character followed by the end of a word. -/
def isAtMark (c : Cursor) (x : Char) : Bool :=
  c.peek = x && c.peekAt 1 = x && c.peekAt 2 = x && isGap (c.peekAt 3)

/-- Whether the cursor is at a mark that separates documents. -/
def isAtSeparator (c : Cursor) : Bool := c.isAtMark '-' || c.isAtMark '.'

/-- Fuel for a loop that reads at least one character in every round. -/
def fuel (c : Cursor) : Nat := c.rest.length + 1

end Cursor

end FuzzyAlgebra.Yaml

import FuzzyAlgebra.Binary64.Text
import FuzzyAlgebra.Text.Quoted
import FuzzyAlgebra.Text.Digit
import FuzzyAlgebra.Value.ArrayText

/-!
# Written values

`Value.display` is the unambiguous form that error details and listings use; `Value.plain` is the
form inside running text, which differs for text and for a few numbers.
-/

namespace FuzzyAlgebra

namespace ArrayScalar

def digits : ArrayScalar → String
  | float64 x => x.render
  | float32 x => x.renderNarrow
  | int64 n => toString n
  | uint64 n => toString n
  | bool b => if b then "True" else "False"

/-- The number inside running text, where a narrow one is written in full. -/
def plain : ArrayScalar → String
  | float32 x => x.render
  | s => s.digits

def display : ArrayScalar → String
  | bool b => if b then "np.True_" else "np.False_"
  | s => "np." ++ s.typeName ++ "(" ++ s.digits ++ ")"

end ArrayScalar

namespace Degree

def display (d : Degree) : String := "MembershipValue(" ++ d.number.render ++ ")"

end Degree

namespace Value

mutual

def display : Value → String
  | absent => "None"
  | bool b => if b then "True" else "False"
  | int n => toString n
  | float x => x.render
  | degree d => d.display
  | text s => Text.quoted s
  | bytes content => Text.quotedBytes content
  | list items => "[" ++ ", ".intercalate (displays items) ++ "]"
  | tuple items =>
    match items with
    | [] => "()"
    | [item] => "(" ++ item.display ++ ",)"
    | first :: rest => "(" ++ ", ".intercalate (first.display :: displays rest) ++ ")"
  | set items =>
    match items with
    | [] => "set()"
    | first :: rest => "\x7b" ++ ", ".intercalate (first.display :: displays rest) ++ "\x7d"
  | dict entries => "\x7b" ++ ", ".intercalate (displayEntries entries) ++ "\x7d"
  | fraction num den => "Fraction(" ++ toString num ++ ", " ++ toString den ++ ")"
  | decimal d => "Decimal('" ++ d.render ++ "')"
  | scalar s => s.display
  | operator op => op.display
  | type t => t.display
  | generic t => t.display
  | array kind shape items => ArrayText.render ⟨kind, shape, (arrayTexts items).toArray⟩
  | object _ written _ => written.get.getD ""

def displays : List Value → List String
  | [] => []
  | v :: vs => v.display :: displays vs

def displayEntries : List (Value × Value) → List String
  | [] => []
  | (k, v) :: entries => (k.display ++ ": " ++ v.display) :: displayEntries entries

def arrayTexts : List Value → List ArrayItem
  | [] => []
  | scalar s :: rest => .number s s.display :: arrayTexts rest
  | v :: rest => .other v.display :: arrayTexts rest

end

def isShort (n : Int) : Bool := n.natAbs < 10 ^ Text.mostDigits

mutual

/-- Whether a value can be written: no whole number in it has more digits than texts of numbers can
have, and neither has a number that one of its objects is written with. -/
def isWritable : Value → Bool
  | int n => isShort n
  | fraction num den => isShort num && isShort den
  | list items => allWritable items
  | tuple items => allWritable items
  | set items => allWritable items
  | dict entries => allEntriesWritable entries
  | array _ _ items => allWritable items
  | object _ written _ => written.get.isSome
  | _ => true

def allWritable : List Value → Bool
  | [] => true
  | v :: vs => v.isWritable && allWritable vs

def allEntriesWritable : List (Value × Value) → Bool
  | [] => true
  | (k, v) :: rest => k.isWritable && v.isWritable && allEntriesWritable rest

end

def plain : Value → String
  | text s => s
  | fraction num den =>
    if den = 1 then toString num else toString num ++ "/" ++ toString den
  | decimal d => d.render
  | scalar s => s.plain
  | v => v.display

def asText : Value → String
  | scalar s => s.digits
  | v => v.plain

end Value

end FuzzyAlgebra

import FuzzyAlgebra.Degree
import FuzzyAlgebra.ElementType
import FuzzyAlgebra.Operator
import FuzzyAlgebra.Value.Decimal

/-!
# Values

Elements, degrees as membership functions return them, thresholds, parameters and names are values
of any kind, since every check that rejects one has to name what it was given.
-/

namespace FuzzyAlgebra

/-- An item of an array of numbers. -/
inductive ArrayScalar where
  | float64 (x : Binary64)
  | float32 (x : Binary64)
  | int64 (n : Int)
  | uint64 (n : Int)
  | bool (b : Bool)
  deriving DecidableEq

/-- The kinds of items of arrays. Only items of the last kind keep kinds of their own. -/
inductive ItemKind where
  | flag
  | unsigned
  | word
  | narrow
  | wide
  | text
  | any
  deriving DecidableEq

/-- A value of any kind. A function or a fuzzy set used as a value is an `object`: all that is ever
asked of it is the name of its type, how it is written, which can be long or impossible, and which
set it is. -/
inductive Value where
  | absent
  | bool (b : Bool)
  | int (n : Int)
  | float (x : Binary64)
  | degree (d : Degree)
  | text (s : String)
  | bytes (content : List UInt8)
  | list (items : List Value)
  | tuple (items : List Value)
  | set (items : List Value)
  | dict (entries : List (Value × Value))
  /-- An array: its lengths in all dimensions, and its items row by row. -/
  | array (kind : ItemKind) (shape : List Nat) (items : List Value)
  | fraction (num : Int) (den : Nat)
  | decimal (d : Decimal)
  | scalar (s : ArrayScalar)
  | operator (op : Operator)
  | type (t : ElementType)
  | generic (t : GenericType)
  | object (typeName : String) (written : Thunk (Option String)) (key : Option Nat)

namespace ArrayScalar

def typeName : ArrayScalar → String
  | float64 _ => "float64"
  | float32 _ => "float32"
  | int64 _ => "int64"
  | uint64 _ => "uint64"
  | bool _ => "bool"

end ArrayScalar

namespace Value

instance : Inhabited Value := ⟨absent⟩

def ofFraction (num : Int) (den : Nat) : Value :=
  let g := num.natAbs.gcd den
  fraction (num / g) (den / g)

def typeName : Value → String
  | absent => "NoneType"
  | bool _ => "bool"
  | int _ => "int"
  | float _ => "float"
  | degree _ => "MembershipValue"
  | text _ => "str"
  | bytes _ => "bytes"
  | list _ => "list"
  | tuple _ => "tuple"
  | set _ => "set"
  | dict _ => "dict"
  | array .. => "ndarray"
  | fraction .. => "Fraction"
  | decimal _ => "Decimal"
  | scalar s => s.typeName
  | operator _ => "Operator"
  | type _ => "type"
  | generic t => t.kindName
  | object typeName _ _ => typeName

def isAbsent : Value → Bool
  | absent => true
  | _ => false

/-- Whether a value counts as a number between degrees: decimals and array booleans do not. -/
def isReal : Value → Bool
  | bool _ => true
  | int _ => true
  | float _ => true
  | degree _ => true
  | fraction .. => true
  | scalar (.bool _) => false
  | scalar _ => true
  | _ => false

mutual

/-- Whether a value can be looked up as a name: what can be changed cannot, nor can a tuple that
holds such a value. -/
def isHashable : Value → Bool
  | list _ => false
  | set _ => false
  | dict _ => false
  | array .. => false
  | tuple items => allHashable items
  | _ => true

def allHashable : List Value → Bool
  | [] => true
  | v :: vs => v.isHashable && allHashable vs

end

mutual

/-- Whether two values are written the same way in answers; an array scalar with a fraction is
written as the number it holds. -/
def sameNotation : Value → Value → Bool
  | absent, absent => true
  | bool a, bool b => a = b
  | int a, int b => a = b
  | float a, float b => a = b
  | float a, scalar (.float64 b) => a = b
  | float a, scalar (.float32 b) => a = b
  | scalar (.float64 a), float b => a = b
  | scalar (.float64 a), scalar (.float32 b) => a = b
  | scalar (.float32 a), float b => a = b
  | scalar (.float32 a), scalar (.float64 b) => a = b
  | degree a, degree b => a = b
  | text a, text b => a = b
  | bytes a, bytes b => a = b
  | list a, list b => sameNotations a b
  | tuple a, tuple b => sameNotations a b
  | dict a, dict b => sameEntries a b
  | fraction a m, fraction b n => a = b && m = n
  | decimal a, decimal b => a = b
  | scalar a, scalar b => a = b
  | operator a, operator b => a = b
  | type a, type b => a = b
  | generic a, generic b => a = b
  | _, _ => false

def sameNotations : List Value → List Value → Bool
  | [], [] => true
  | a :: as, b :: bs => sameNotation a b && sameNotations as bs
  | _, _ => false

def sameEntries : List (Value × Value) → List (Value × Value) → Bool
  | [], [] => true
  | (k, a) :: as, (l, b) :: bs => sameNotation k l && sameNotation a b && sameEntries as bs
  | _, _ => false

end

end Value

end FuzzyAlgebra

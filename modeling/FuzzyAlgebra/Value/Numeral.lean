import FuzzyAlgebra.Mishap
import FuzzyAlgebra.Value.Basic

/-!
# Numbers in arithmetic

Plain whole numbers and fractions stay exact among themselves and are converted when they meet a
floating-point number. Items of arrays keep their width: beside one, a plain number takes the width
of the item, unless that has no place for it.
-/

namespace FuzzyAlgebra

namespace Value

/-- A number that was rounded must not have become infinite. -/
def bounded (x : Binary64) : Except Mishap Binary64 :=
  if x.isFinite then .ok x else .error .tooLarge

/-- A value as a floating-point number: any number, a boolean, or the text of a number. -/
def toBinary64 : Value → Except Mishap Binary64
  | bool b => .ok (if b then 1 else 0)
  | int n => bounded (.ofInt n)
  | float x => .ok x
  | degree d => .ok d.number
  | text s =>
    match Binary64.ofText? s with
    | some x => .ok x
    | none => .error .malformed
  | fraction num den => bounded (.ofQuotient num den)
  | decimal d =>
    match d.toBinary64? with
    | some x => .ok x
    | none => .error .malformed
  | scalar (.float64 x) => .ok x
  | scalar (.float32 x) => .ok x
  | scalar (.int64 n) => .ok (.ofInt n)
  | scalar (.uint64 n) => .ok (.ofInt n)
  | scalar (.bool b) => .ok (if b then 1 else 0)
  | _ => .error .wrongType

end Value

/-- How a number takes part in arithmetic: the first five are plain numbers, the others items of
arrays. -/
inductive Numeral where
  | truth (b : Bool)
  | whole (n : Int)
  | ratio (num : Int) (den : Nat)
  | float (x : Binary64)
  | degree (x : Binary64)
  | flag (b : Bool)
  | word (n : Int)
  | unsigned (n : Int)
  | narrow (x : Binary64)
  | wide (x : Binary64)

/-- An operation of arithmetic: exact on fractions, rounded on floating-point numbers, and, where
there is such a thing, logical on truth values in arrays. -/
structure Arithmetic where
  exact : (Int × Nat) → (Int × Nat) → Int × Nat
  rounded : Binary64 → Binary64 → Binary64
  logical : Option (Bool → Bool → Bool)

namespace Arithmetic

def sum : Arithmetic where
  exact := fun (a, m) (b, n) => (a * n + b * m, m * n)
  rounded := (· + ·)
  logical := some (· || ·)

def difference : Arithmetic where
  exact := fun (a, m) (b, n) => (a * n - b * m, m * n)
  rounded := (· - ·)
  logical := none

def product : Arithmetic where
  exact := fun (a, m) (b, n) => (a * b, m * n)
  rounded := (· * ·)
  logical := some (· && ·)

end Arithmetic

namespace Numeral

def ofScalar : ArrayScalar → Numeral
  | .float64 x => wide x
  | .float32 x => narrow x
  | .int64 n => word n
  | .uint64 n => unsigned n
  | .bool b => flag b

def ofValue? : Value → Option Numeral
  | .bool b => some (truth b)
  | .int n => some (whole n)
  | .float x => some (float x)
  | .degree d => some (degree d.number)
  | .fraction num den => some (ratio num den)
  | .scalar s => some (ofScalar s)
  | _ => none

def ofTruth (b : Bool) : Int := if b then 1 else 0

def plain : Numeral → Numeral
  | flag b => truth b
  | word n => whole n
  | unsigned n => whole n
  | narrow x => float x
  | wide x => float x
  | degree x => float x
  | a => a

/-- The whole number of a plain truth value or whole number. -/
def whole? : Numeral → Option Int
  | truth b => some (ofTruth b)
  | whole n => some n
  | _ => none

/-- The quotient of a plain number that is not in floating point. -/
def quotient? : Numeral → Option (Int × Nat)
  | ratio num den => some (num, den)
  | a => a.whole?.map fun n => (n, 1)

def truth? : Numeral → Option Bool
  | truth b => some b
  | flag b => some b
  | _ => none

def isItem : Numeral → Bool
  | flag _ => true
  | word _ => true
  | unsigned _ => true
  | narrow _ => true
  | wide _ => true
  | _ => false

/-- Whether a number has 64 bits for sure: a degree keeps its width beside a narrow item. -/
def isWide : Numeral → Bool
  | wide _ => true
  | degree _ => true
  | word _ => true
  | unsigned _ => true
  | _ => false

def isNarrow : Numeral → Bool
  | narrow _ => true
  | _ => false

def isRatio : Numeral → Bool
  | ratio .. => true
  | _ => false

def wrap (n : Int) : Int := Int.bmod n (2 ^ 64)

/-- The whole number that a number is among whole numbers of 64 bits; `none` if it has a
fraction. -/
def word? : Numeral → Option (Except Mishap Int)
  | truth b => some (.ok (ofTruth b))
  | flag b => some (.ok (ofTruth b))
  | word n => some (.ok n)
  | whole n => some (if wrap n = n then .ok n else .error .tooLarge)
  | _ => none

/-- A whole number of 64 bits without a sign, what is past them dropped. -/
def wrapUnsigned (n : Int) : Int := n % 2 ^ 64

/-- The whole number that a number is among whole numbers of 64 bits without a sign. -/
def unsigned? : Numeral → Option (Except Mishap Int)
  | truth b => some (.ok (ofTruth b))
  | flag b => some (.ok (ofTruth b))
  | unsigned n => some (.ok n)
  | whole n => some (if wrapUnsigned n = n then .ok n else .error .tooLarge)
  | _ => none

def toBinary64 : Numeral → Except Mishap Binary64
  | truth b => .ok (.ofInt (ofTruth b))
  | whole n => Value.bounded (.ofInt n)
  | ratio num den => Value.bounded (.ofQuotient num den)
  | float x => .ok x
  | degree x => .ok x
  | flag b => .ok (.ofInt (ofTruth b))
  | word n => .ok (.ofInt n)
  | unsigned n => .ok (.ofInt n)
  | narrow x => .ok x
  | wide x => .ok x

/-- The two numbers as they meet. A fraction makes the other number plain, unless that is a wide
item after it; a degree before a wide item makes that one plain. -/
def meet (a b : Numeral) : Numeral × Numeral :=
  match a, b with
  | ratio .., wide _ => (a, b)
  | degree x, wide y => (float x, float y)
  | a, b => if a.isRatio || b.isRatio then (a.plain, b.plain) else (a, b)

/-- The operation in floating point, in the width that the two numbers call for: an item of 32 bits
keeps its width beside plain numbers, truth values and its like. -/
def floating (f : Binary64 → Binary64 → Binary64) (a b : Numeral) : Except Mishap Value := do
  let x ← a.toBinary64
  let y ← b.toBinary64
  if (a.isNarrow || b.isNarrow) && !(a.isWide || b.isWide) then
    pure (.scalar (.float32 (f x.narrow y.narrow).narrow))
  else if a.isItem || b.isItem then pure (.scalar (.float64 (f x y)))
  else pure (.float (f x y))

def onWholes (op : Arithmetic) (make : Int → ArrayScalar) (m n : Except Mishap Int) :
    Except Mishap Value := do
  pure (.scalar (make (op.exact (← m, 1) (← n, 1)).1))

/-- The operation on whole numbers of 64 bits, if both are such. -/
def words? (op : Arithmetic) (a b : Numeral) : Option (Except Mishap Value) :=
  match a.word?, b.word?, a.unsigned?, b.unsigned? with
  | some m, some n, _, _ => some (onWholes op (fun n => .int64 (wrap n)) m n)
  | _, _, some m, some n => some (onWholes op (fun n => .uint64 (wrapUnsigned n)) m n)
  | _, _, _, _ => none

def combineItems (op : Arithmetic) (a b : Numeral) : Except Mishap Value :=
  match a.truth?, b.truth? with
  | some p, some q =>
    match op.logical with
    | some f => .ok (.scalar (.bool (f p q)))
    | none => .error .wrongType
  | _, _ =>
    match words? op a b with
    | some result => result
    | none => floating op.rounded a b

def combine (op : Arithmetic) (a b : Numeral) : Except Mishap Value :=
  let (a, b) := meet a b
  if a.isItem || b.isItem then combineItems op a b
  else
    match a.quotient?, b.quotient? with
    | some p, some q =>
      let (num, den) := op.exact p q
      .ok (if a.isRatio || b.isRatio then Value.ofFraction num den else .int num)
    | _, _ => floating op.rounded a b

end Numeral

end FuzzyAlgebra

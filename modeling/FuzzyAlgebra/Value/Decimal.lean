import FuzzyAlgebra.Binary64.Reading
import FuzzyAlgebra.Mishap

/-!
# Decimal numbers

A decimal number keeps the digits it was written with: `1.50` has three digits and two places. It
is written back positionally unless that would need digits that are not there or too many zeros.
Results of arithmetic are rounded to 28 digits.
-/

namespace FuzzyAlgebra

/-- A decimal number, `± digits * 10 ^ scale` when it is finite. -/
inductive Decimal where
  | finite (negative : Bool) (digits : Nat) (scale : Int)
  | infinite (negative : Bool)
  | nan (negative signaling : Bool) (payload : String)
  deriving DecidableEq, Repr

namespace Decimal

def signText (negative : Bool) : String := if negative then "-" else ""

/-- The finite number of digits with an optional point and exponent. -/
def ofMagnitude? (negative : Bool) (cs : List Char) : Option Decimal :=
  let whole := cs.takeWhile Char.isDigit
  let rest := cs.dropWhile Char.isDigit
  let (places, rest) := match rest with
    | '.' :: rest => (rest.takeWhile Char.isDigit, rest.dropWhile Char.isDigit)
    | rest => ([], rest)
  if whole.isEmpty && places.isEmpty then none
  else (Binary64.exponent? rest).map fun e =>
    finite negative (Binary64.digitsValue (whole ++ places)) (e - places.length)

def ofText? (s : String) : Option Decimal :=
  let cs := Text.trimBoth Text.isBlank (s.toList.map Text.plainDigit)
  let (negative, cs) := Binary64.takeSign (cs.filter (· ≠ '_'))
  let word := Text.lower (String.ofList cs)
  if word = "inf" ∨ word = "infinity" then some (infinite negative)
  else if word.startsWith "nan" then some (nan negative false (word.drop 3).toString)
  else if word.startsWith "snan" then some (nan negative true (word.drop 4).toString)
  else ofMagnitude? negative cs

/-- The digits with a point after `place` of them, zeros filling both sides. -/
def pointAt (digits : List Char) (place : Int) : List Char :=
  if place ≤ 0 then '0' :: '.' :: List.replicate place.natAbs '0' ++ digits
  else
    let n := place.natAbs
    if digits.length ≤ n then digits ++ List.replicate (n - digits.length) '0'
    else digits.take n ++ '.' :: digits.drop n

def render : Decimal → String
  | finite negative digits scale =>
    let written := (toString digits).toList
    let left : Int := scale + written.length
    let positional : Bool := scale ≤ 0 ∧ -6 < left
    let place := if positional then left else 1
    let e := left - place
    let exponent :=
      if e = 0 then "" else "E" ++ (if e < 0 then "-" else "+") ++ toString e.natAbs
    signText negative ++ String.ofList (pointAt written place) ++ exponent
  | infinite negative => signText negative ++ "Infinity"
  | nan negative signaling payload =>
    signText negative ++ (if signaling then "sNaN" else "NaN") ++ payload

/-- The nearest floating-point number; a signaling NaN has none. -/
def toBinary64? : Decimal → Option Binary64
  | finite negative digits scale => some (Binary64.ofDecimal negative digits scale)
  | infinite negative => some (.infinite negative)
  | nan _ signaling _ => if signaling then none else some .nan

/-! ### Arithmetic -/

def precision : Nat := 28

/-- The greatest power of ten of a leading digit; the least one is its negative. -/
def mostExponent : Int := 999999

def leastScale : Int := 1 - mostExponent - precision

/-- A finite number at a greater scale, the digits past it rounded to the nearest even ones. -/
def roundedTo (negative : Bool) (digits : Nat) (scale target : Int) : Decimal :=
  finite negative (Binary64.nearestEven digits (10 ^ (target - scale).natAbs)) target

/-- The result of an operation: a number with more digits than results have is rounded, and one past
the greatest number is refused. -/
def settle (negative : Bool) (digits : Nat) (scale : Int) : Except Mishap Decimal :=
  if digits = 0 then .ok (finite negative 0 (min (max scale leastScale) mostExponent))
  else
    let least := max ((toString digits).length + scale - precision) leastScale
    let result := if scale < least then roundedTo negative digits scale least
      else finite negative digits scale
    match result with
    | finite _ n e =>
      if mostExponent < (toString n).length + e - 1 then .error .overflow
      else if precision < (toString n).length then .ok (finite negative (n / 10) (e + 1))
      else .ok result
    | result => .ok result

def ofSigned (digits scale : Int) : Decimal := finite (digits < 0) digits.natAbs scale

/-- Of two numbers the first that is none; one that must not be used is refused. -/
def nan? (d e : Decimal) : Option (Except Mishap Decimal) :=
  match d, e with
  | nan _ true _, _ => some (.error .indefinite)
  | _, nan _ true _ => some (.error .indefinite)
  | nan s false p, _ => some (.ok (nan s false p))
  | _, nan s false p => some (.ok (nan s false p))
  | _, _ => none

/-- A finite number that is smaller than every digit that counts beside another one, whose last
digit is at `scale`, as the least number that still turns a tie. -/
def atLeast (digits : Nat) (scale floor : Int) : Nat × Int :=
  if digits ≠ 0 ∧ (toString digits).length + scale - 1 < floor then (1, floor) else (digits, scale)

/-- The scale below which digits do not count beside a number. -/
def floorBeside (digits : Nat) (scale : Int) : Int :=
  scale + min (-1) ((toString digits).length - precision - 2 : Int)

def addFinite (s : Bool) (m : Nat) (a : Int) (t : Bool) (n : Nat) (b : Int) :
    Except Mishap Decimal :=
  let (m', a') := if a < b then atLeast m a (floorBeside n b) else (m, a)
  let (n', b') := if b ≤ a then atLeast n b (floorBeside m a) else (n, b)
  let scale := min a' b'
  let total := Binary64.signed s (m' * 10 ^ (a' - scale).natAbs)
    + Binary64.signed t (n' * 10 ^ (b' - scale).natAbs)
  if total = 0 then settle false 0 (min a b) else settle (total < 0) total.natAbs scale

/-- A finite number beside a zero at `scale`: it is written with as many places, as far as it can
have them. -/
def addZero (s : Bool) (m : Nat) (a scale : Int) : Except Mishap Decimal :=
  let target := max (min a scale) (a - precision - 1)
  settle s (m * 10 ^ (a - target).natAbs) target

protected def add (d e : Decimal) : Except Mishap Decimal :=
  match nan? d e with
  | some result => result
  | none =>
    match d, e with
    | infinite s, infinite t => if s = t then .ok d else .error .indefinite
    | infinite _, _ => .ok d
    | _, infinite _ => .ok e
    | finite s m a, finite t n b =>
      if m = 0 ∧ n = 0 then settle (s && t) 0 (min a b)
      else if m = 0 then addZero t n b a
      else if n = 0 then addZero s m a b
      else addFinite s m a t n b
    | _, _ => .error .indefinite

protected def mul (d e : Decimal) : Except Mishap Decimal :=
  match nan? d e with
  | some result => result
  | none =>
    match d, e with
    | infinite s, infinite t => .ok (infinite (s != t))
    | infinite s, finite t n _ => if n = 0 then .error .indefinite else .ok (infinite (s != t))
    | finite s m _, infinite t => if m = 0 then .error .indefinite else .ok (infinite (s != t))
    | finite s m a, finite t n b => settle (s != t) (m * n) (a + b)
    | _, _ => .error .indefinite

end Decimal

end FuzzyAlgebra

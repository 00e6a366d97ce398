import FuzzyAlgebra.Binary64.Basic

/-!
# Decimal digits of a floating-point number

`shortest` gives the fewest digits that read back as the same number, and among those the ones
nearest to it. `significant` rounds to a given count of digits, and `fixed` to a given count of
decimal places.
-/

namespace FuzzyAlgebra.Binary64

/-- The decimal number `digits * 10 ^ scale`. -/
structure Digits where
  digits : Nat
  scale : Int
  deriving DecidableEq, Repr

namespace Digits

def text (d : Digits) : String := toString d.digits

def exponent (d : Digits) : Int := d.text.length - 1 + d.scale

def trimLoop : Nat → Digits → Digits
  | 0, d => d
  | fuel + 1, d =>
    if d.digits ≠ 0 ∧ d.digits % 10 = 0 then trimLoop fuel ⟨d.digits / 10, d.scale + 1⟩ else d

def trim (d : Digits) : Digits := trimLoop d.text.length d

end Digits

/-- `units * 10 ^ (-scale)` as a quotient whose value is in ones. -/
def overPower (units : Nat) (scale : Int) : Nat × Nat :=
  if scale < 0 then (units * 10 ^ scale.natAbs, unitsPerOne)
  else (units, unitsPerOne * 10 ^ scale.natAbs)

def reaches (units : Nat) (e : Int) : Bool :=
  let (num, den) := overPower units e
  den ≤ num

/-- The power of ten of the leading digit of a positive magnitude, from below. -/
def leadingPower (units : Nat) : Int :=
  let guess : Int := ((units.log2 : Int) - 1074) * 30103 / 100000 - 1
  if reaches units (guess + 2) then guess + 2
  else if reaches units (guess + 1) then guess + 1
  else guess

/-- Whether the decimal number rounds to the magnitude, when neighbouring magnitudes are `gap`
apart: it lies in the interval of the values that do, ends included when the multiple of the gap is
even. Below a power of two the gap halves, unless it is already the least one. -/
def roundsTo (gap least units : Nat) (d : Digits) : Bool :=
  let below := if gap ≠ least ∧ units = 2 ^ units.log2 then gap else 2 * gap
  let low := 4 * units - below
  let high := 4 * units + 2 * gap
  let (num, den) :=
    if d.scale < 0 then (4 * d.digits * unitsPerOne, 10 ^ d.scale.natAbs)
    else (4 * d.digits * unitsPerOne * 10 ^ d.scale.natAbs, 1)
  if units / gap % 2 = 0 then low * den ≤ num ∧ num ≤ high * den
  else low * den < num ∧ num < high * den

/-- The two neighbours of the magnitude on the grid of `10 ^ scale`, the nearer one first. -/
def gridNeighbours (units : Nat) (scale : Int) : List Digits :=
  let (num, den) := overPower units scale
  let below := num / den
  let nearest := nearestEven num den
  if nearest = below then [⟨below, scale⟩, ⟨below + 1, scale⟩]
  else [⟨below + 1, scale⟩, ⟨below, scale⟩]

/-- The first grid, from `count` digits on, that holds a decimal number accepted by the test. -/
def shortestFrom (accepts : Digits → Bool) (units : Nat) (leading : Int) : Nat → Nat → Digits
  | 0, count => ⟨0, leading - count⟩
  | fuel + 1, count =>
    match (gridNeighbours units (leading + 1 - count)).find? accepts with
    | some d => d
    | none => shortestFrom accepts units leading fuel (count + 1)

/-- The fewest digits that read back as the magnitude; seventeen always suffice. -/
def shortest (units : Nat) : Digits :=
  if units = 0 then ⟨0, 0⟩
  else (shortestFrom (roundsTo (spacing units) 1 units) units (leadingPower units) 17 1).trim

/-- The fewest digits that read back as the magnitude in the 32-bit format. -/
def shortestNarrow (units : Nat) : Digits :=
  if units = 0 then ⟨0, 0⟩
  else (shortestFrom (roundsTo (narrowSpacing units) (2 ^ 925) units) units
    (leadingPower units) 17 1).trim

/-- A positive magnitude rounded to `count` significant digits. -/
def significant (units count : Nat) : Digits :=
  if units = 0 then ⟨0, 0⟩
  else
    let scale := leadingPower units + 1 - count
    let (num, den) := overPower units scale
    let rounded := nearestEven num den
    if rounded = 10 ^ count then ⟨10 ^ (count - 1), scale + 1⟩ else ⟨rounded, scale⟩

def fixed (units places : Nat) : Digits :=
  ⟨nearestEven (units * 10 ^ places) unitsPerOne, -(places : Int)⟩

end FuzzyAlgebra.Binary64

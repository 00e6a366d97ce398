import FuzzyAlgebra.Binary64.Basic

/-!
# The exponential function

`exp (-y)` is the reciprocal of `exp y`, which is a truncated power series of `y / 1024` raised to
the 1024th power, all in fixed point. Every step is monotone in `y`, so the result is too.
-/

namespace FuzzyAlgebra.Binary64

namespace Exp

def argumentBits : Nat := 140

/-- The fixed-point fraction bits of the series and its powers. -/
def seriesBits : Nat := 160

def halvings : Nat := 10

/-- Beyond this argument the result is past every finite number, and its reciprocal is below every
positive one. -/
def bound : Nat := 800

/-- A magnitude in fixed point, rounded down and held below the bound. -/
def argument (units : Nat) : Nat :=
  min (units * 2 ^ argumentBits / unitsPerOne) (bound * 2 ^ argumentBits)

/-- The power series of `t / 2 ^ (argumentBits + halvings)` from its last term inwards:
`1 + t/1 * (1 + t/2 * (1 + ...))`. -/
def series (t : Nat) : Nat → Nat → Nat
  | 0, _ => 2 ^ seriesBits
  | fuel + 1, n =>
    2 ^ seriesBits + series t fuel (n + 1) * t / (n * 2 ^ (argumentBits + halvings))

def square (s : Nat) : Nat := s * s / 2 ^ seriesBits

/-- The exponential of a fixed-point argument, in fixed point. -/
def growth (t : Nat) : Nat := Nat.repeat square halvings (series t 40 1)

end Exp

def exp : Binary64 → Binary64
  | nan => nan
  | infinite negative => if negative then zero else infinite false
  | finite negative units _ =>
    let growth := Exp.growth (Exp.argument units)
    if negative then ofRatio false (2 ^ Exp.seriesBits * unitsPerOne) growth
    else ofRatio false (growth * unitsPerOne) (2 ^ Exp.seriesBits)

end FuzzyAlgebra.Binary64

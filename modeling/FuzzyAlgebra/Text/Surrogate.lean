/-!
# Surrogates

An escape can name a surrogate, a code point that is no character. Where a text holds one, a
character of the private planes stands in for it.
-/

namespace FuzzyAlgebra.Text

def firstSurrogate : Nat := 0xd800

def surrogateCount : Nat := 0x800

/-- The character that stands in for the first surrogate; those of the others follow it. -/
def firstStandIn : Nat := 0xf8000

def standIn (code : Nat) : Char := Char.ofNat (firstStandIn + (code - firstSurrogate))

def surrogate? (c : Char) : Option Nat :=
  let n := c.toNat
  if firstStandIn ≤ n ∧ n < firstStandIn + surrogateCount then
    some (firstSurrogate + (n - firstStandIn))
  else none

def hasSurrogate (s : String) : Bool := s.toList.any fun c => (surrogate? c).isSome

/-- A text whose surrogates were replaced, three marks for each. -/
def withoutSurrogates (s : String) : String :=
  String.ofList (s.toList.flatMap fun c =>
    if (surrogate? c).isSome then List.replicate 3 '\ufffd' else [c])

end FuzzyAlgebra.Text

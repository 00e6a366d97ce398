/-!
# Bytes in characters of six bits

Letters, digits and two signs stand for six bits each, and four characters carry three bytes. Signs
fill the last group, and other characters are skipped.
-/

namespace FuzzyAlgebra.Text.SixBits

def value? (c : Char) : Option Nat :=
  if c.isUpper then some (c.toNat - 65)
  else if c.isLower then some (c.toNat - 71)
  else if c.isDigit then some (c.toNat + 4)
  else if c = '+' then some 62
  else if c = '/' then some 63
  else none

/-- The six bits of the characters, up to the signs that fill a group; these must fill it, and
without them the last group must be full. `count` is the place in a group of four, and `pads` counts
the signs. -/
def read? (count pads : Nat) : List Char → Option (List Nat)
  | [] => if count = 0 then some [] else none
  | c :: cs =>
    if c = '=' then
      if 2 ≤ count && 4 ≤ count + pads + 1 then some []
      else read? count (if 2 ≤ count then pads + 1 else pads) cs
    else
      match value? c with
      | some bits => (read? ((count + 1) % 4) 0 cs).map (bits :: ·)
      | none => read? count pads cs

def toBytes : List Nat → List UInt8
  | a :: b :: c :: d :: rest =>
    .ofNat (4 * a + b / 16) :: .ofNat (16 * b + c / 4) :: .ofNat (64 * c + d) :: toBytes rest
  | [a, b, c] => [.ofNat (4 * a + b / 16), .ofNat (16 * b + c / 4)]
  | [a, b] => [.ofNat (4 * a + b / 16)]
  | _ => []

def decode? (cs : List Char) : Option (List UInt8) :=
  if cs.all fun c => c.toNat < 128 then (read? 0 0 cs).map toBytes else none

end FuzzyAlgebra.Text.SixBits

/-!
# Digits

The digits zero to nine of every script that has them stand in a row; the table lists the zeros.
-/

namespace FuzzyAlgebra.Text

def decimalZeros : List Nat :=
  [48, 1632, 1776, 1984, 2406, 2534, 2662, 2790, 2918, 3046, 3174, 3302, 3430, 3558, 3664, 3792,
   3872, 4160, 4240, 6112, 6160, 6470, 6608, 6784, 6800, 6992, 7088, 7232, 7248, 42528, 43216,
   43264, 43472, 43504, 43600, 44016, 65296, 66720, 68912, 69734, 69872, 69942, 70096, 70384,
   70736, 70864, 71248, 71360, 71472, 71904, 72016, 72784, 73040, 73120, 92768, 92864, 93008,
   120782, 120792, 120802, 120812, 120822, 123200, 123632, 125264, 130032]

def digitValue? (c : Char) : Option Nat :=
  (decimalZeros.find? fun first => first ≤ c.toNat ∧ c.toNat < first + 10).map (c.toNat - ·)

/-- A decimal digit of any script as a digit from `0` to `9`; other characters stay. -/
def plainDigit (c : Char) : Char :=
  if c.toNat < 128 then c
  else match digitValue? c with
    | some value => Char.ofNat (48 + value)
    | none => c

/-- How many digits a whole number in base ten may have where it is read or written. -/
def mostDigits : Nat := 4300

def hexDigit? (c : Char) : Option Nat :=
  if '0' ≤ c ∧ c ≤ '9' then some (c.toNat - 48)
  else if 'a' ≤ c ∧ c ≤ 'f' then some (c.toNat - 87)
  else if 'A' ≤ c ∧ c ≤ 'F' then some (c.toNat - 55)
  else none

end FuzzyAlgebra.Text

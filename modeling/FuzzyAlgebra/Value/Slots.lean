import FuzzyAlgebra.Value.Order

/-!
# The order of small sets

A set of up to four items keeps them in eight slots. A number asks for the slots in a sequence that
its residue modulo a prime gives, and takes the first free one; the set is read slot by slot.
-/

namespace FuzzyAlgebra

namespace Slots

def modulus : Nat := 2 ^ 61 - 1

/-- The residue of a number with a sign; the one before zero is moved by one. -/
def signed (negative : Bool) (residue : Nat) : Int :=
  let r := Binary64.signed negative residue
  if r = -1 then -2 else r

/-- The residue of a value, if it has one. Units of the least number are powers of two, whose
inverse is a power of two as well. -/
def residue? : Value → Option Int
  | .absent => some 0xfca86420
  | .bool b => some (if b then 1 else 0)
  | .int n => some (signed (decide (n < 0)) (n.natAbs % modulus))
  | .float (.finite negative units _) => some (signed negative (units * 2 ^ 24 % modulus))
  | .float (.infinite negative) => some (Binary64.signed negative 314159)
  | _ => none

def sequence (slot perturbation : Nat) : Nat → List Nat
  | 0 => []
  | fuel + 1 =>
    let rest := perturbation / 32
    slot :: sequence ((5 * slot + 1 + rest) % 8) rest fuel

/-- All slots are among the first of the sequence: once the perturbation is used up, eight steps
visit each of them. -/
def slotsFor (residue : Int) : List Nat :=
  let start := (residue % 2 ^ 64).toNat
  sequence (start % 8) start 24

variable {α : Type}

def place (taken : List (Nat × α)) (slots : List Nat) (a : α) : List (Nat × α) :=
  match slots.find? fun s => !taken.any fun (t, _) => t = s with
  | some s => (s, a) :: taken
  | none => taken

/-- The items of the slots, from the first slot to the last. -/
def contents (taken : List (Nat × α)) : List α :=
  (List.range 8).filterMap fun s => (taken.find? fun (t, _) => t = s).map Prod.snd

end Slots

namespace Value

/-- The set of distinct items, in the order in which it is read. Sets with more items, or with
others than numbers, keep the order in which they are given. -/
def setOf (items : List Value) : Value :=
  match items.mapM Slots.residue? with
  | some residues =>
    if items.length ≤ 4 then
      set (Slots.contents ((items.zip residues).foldl
        (fun taken (v, r) => Slots.place taken (Slots.slotsFor r) v) []))
    else set items
  | none => set items

end Value

end FuzzyAlgebra

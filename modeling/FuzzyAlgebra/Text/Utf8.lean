/-!
# Bytes as characters

A character takes one to four bytes. The first byte tells how many follow, and what the second one
may be, so that every character has one form only and surrogates have none. Bytes can come in
pieces: what a piece leaves open is kept for the next one.
-/

namespace FuzzyAlgebra.Text

namespace Utf8

/-- A character of which some bytes are missing; `low` and `high` bound the next one. -/
structure Open where
  missing : Nat
  code : Nat
  low : Nat
  high : Nat

def Open.closed : Open := ⟨0, 0, 0, 0⟩

def lead? (b : Nat) : Option Open :=
  if 0xc2 ≤ b ∧ b ≤ 0xdf then some ⟨1, b - 0xc0, 0x80, 0xbf⟩
  else if 0xe0 ≤ b ∧ b ≤ 0xef then
    some ⟨2, b - 0xe0, if b = 0xe0 then 0xa0 else 0x80, if b = 0xed then 0x9f else 0xbf⟩
  else if 0xf0 ≤ b ∧ b ≤ 0xf4 then
    some ⟨3, b - 0xf0, if b = 0xf0 then 0x90 else 0x80, if b = 0xf4 then 0x8f else 0xbf⟩
  else none

/-- One byte more: the character that it completes, and what is open after it. -/
def step? (o : Open) (b : Nat) : Option (Option Char × Open) :=
  if o.missing = 0 then
    if b < 0x80 then some (some (Char.ofNat b), Open.closed) else (lead? b).map fun o => (none, o)
  else if b < o.low ∨ o.high < b then none
  else
    let code := o.code * 64 + (b - 0x80)
    if o.missing = 1 then some (some (Char.ofNat code), Open.closed)
    else some (none, ⟨o.missing - 1, code, 0x80, 0xbf⟩)

/-- The characters of a piece, given what was open before it, and what is open after it. -/
def decode? (o : Open) : List UInt8 → Option (List Char × Open)
  | [] => some ([], o)
  | b :: rest => do
    let (c?, o) ← step? o b.toNat
    let (cs, o) ← decode? o rest
    pure (c?.toList ++ cs, o)

end Utf8

end FuzzyAlgebra.Text

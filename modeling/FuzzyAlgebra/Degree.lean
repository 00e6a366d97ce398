import FuzzyAlgebra.Binary64.Basic

/-!
# Degrees of membership

A degree is a number between zero and one, both included. NaN is no degree; negative zero is one.
-/

namespace FuzzyAlgebra

/-- A degree of membership. -/
structure Degree where
  number : Binary64
  nonneg : 0 ≤ number
  le_one : number ≤ 1
  deriving DecidableEq

namespace Degree

def ofNumber? (x : Binary64) : Option Degree :=
  if h : 0 ≤ x ∧ x ≤ 1 then some ⟨x, h.1, h.2⟩ else none

theorem ofNumber?_eq_some_iff {x : Binary64} {d : Degree} :
    ofNumber? x = some d ↔ d.number = x := by
  unfold ofNumber?
  split
  · rename_i h
    cases d
    simp [eq_comm]
  · rename_i h
    constructor
    · simp
    · intro hd
      exact absurd ⟨hd ▸ d.nonneg, hd ▸ d.le_one⟩ h

end Degree

end FuzzyAlgebra

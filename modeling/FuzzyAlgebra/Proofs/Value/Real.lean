import FuzzyAlgebra.Proofs.Value.Float

/-!
# Real numbers as values

A real number of whatever kind can be compared with a floating-point number, exactly and from either
side: the two comparisons are each other's reverse, so a number that lies neither below nor above
another one is equal to it.
-/

namespace FuzzyAlgebra

open Binary64

/-! ### Order -/

theorem Quantity.compare?_ofBinary64_left (q : Quantity) (y : Binary64) :
    (ofBinary64 y).compare? q = (q.compare? (ofBinary64 y)).map Ordering.swap := by
  have hswap (m n : Int) : some (compare m n) = (some (compare n m)).map Ordering.swap :=
    congrArg some (Int.compare_swap n m).symm
  cases y with
  | nan => cases q <;> rfl
  | infinite s =>
    cases q with
    | nan => rfl
    | infinite t => cases s <;> cases t <;> rfl
    | ratio num den => cases s <;> rfl
    | scaled num scale => cases s <;> rfl
  | finite s n hn =>
    cases q with
    | nan => rfl
    | infinite t => cases t <;> rfl
    | ratio num den => exact hswap _ _
    | scaled num scale => rfl

namespace Value

variable {x : Value} {y : Binary64}

theorem compare?_float_right (x : Value) (y : Binary64) :
    compare? x (.float y) = compareApart x (.float y) := by
  cases x <;> simp only [compare?]

theorem compare?_float_left (x : Value) (y : Binary64) :
    compare? (.float y) x = compareApart (.float y) x := by
  simp only [compare?]

/-- The order of a real number and a floating-point number, whichever is asked first. -/
theorem exists_order (hx : x.isReal = true) (y : Binary64) :
    ∃ o : Option Ordering, compareNumbers x (.float y) = .ok o ∧
      compare? x (.float y) = .ok o ∧ compare? (.float y) x = .ok (o.map Ordering.swap) := by
  have hcompare : ∃ q z, compareNumbers x (.float y) = .ok (q.compare? (.ofBinary64 z)) ∧
      compareApart x (.float y) = .ok (q.compare? (.ofBinary64 z)) ∧
      compareApart (.float y) x = .ok ((Quantity.ofBinary64 z).compare? q) := by
    cases x with
    | bool b => exact ⟨_, _, rfl, rfl, rfl⟩
    | int n => exact ⟨_, _, rfl, rfl, rfl⟩
    | float z => exact ⟨_, _, rfl, rfl, rfl⟩
    | degree d => exact ⟨_, _, rfl, rfl, rfl⟩
    | fraction num den => exact ⟨_, _, rfl, rfl, rfl⟩
    | scalar s =>
      cases s with
      | bool b => cases hx
      | float64 z => exact ⟨_, _, rfl, rfl, rfl⟩
      | float32 z => exact ⟨_, _, rfl, rfl, rfl⟩
      | int64 n => exact ⟨_, _, rfl, rfl, rfl⟩
      | uint64 n => exact ⟨_, _, rfl, rfl, rfl⟩
    | _ => cases hx
  obtain ⟨q, z, hnumbers, hright, hleft⟩ := hcompare
  refine ⟨_, hnumbers, ?_, ?_⟩
  · rw [compare?_float_right, hright]
  · rw [compare?_float_left, hleft, Quantity.compare?_ofBinary64_left]

/-- A real number is equal to a floating-point number where each is at most the other. -/
theorem exists_le_and_le (hx : x.isReal = true) (y : Binary64) :
    ∃ p q, le (.float y) x = .ok p ∧ x.le (.float y) = .ok q ∧ (p && q) = x.eqNumber y := by
  obtain ⟨o, hnumbers, hright, hleft⟩ := exists_order hx y
  refine ⟨_, _, congrArg (Except.map _) hleft, congrArg (Except.map _) hright, ?_⟩
  rw [eqNumber, hnumbers]
  cases o with
  | none => rfl
  | some order => cases order <;> rfl

end Value

end FuzzyAlgebra

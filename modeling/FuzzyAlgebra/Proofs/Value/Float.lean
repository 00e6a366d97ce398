import FuzzyAlgebra.Proofs.Binary64.Rounding
import FuzzyAlgebra.Value.Order

/-!
# Floating-point numbers as values

Among floating-point numbers the comparisons and the arithmetic of values are those of the numbers.
-/

namespace FuzzyAlgebra

open Binary64

/-! ### Order -/

namespace Quantity

theorem compare_infinite_left (s t : Bool) {n : Nat} (h : n < limit) :
    compare (signed s limit) (signed t n) = if s then .lt else .gt := by
  cases s with
  | false =>
    have hlt : signed t n < (limit : Int) := by
      cases t <;> simp only [signed_false, signed_true] <;> omega
    exact Int.compare_eq_gt.mpr hlt
  | true =>
    have hlt : -(limit : Int) < signed t n := by
      cases t <;> simp only [signed_false, signed_true] <;> omega
    exact Int.compare_eq_lt.mpr hlt

theorem compare_infinite_right (s t : Bool) {n : Nat} (h : n < limit) :
    compare (signed t n) (signed s limit) = if s then .gt else .lt := by
  rw [← Int.compare_swap, compare_infinite_left s t h]
  cases s <;> rfl

theorem compare_mul_right {a b : Int} {n : Nat} (h : 0 < n) :
    compare (a * n) (b * n) = compare a b := by
  have hpos : (0 : Int) < n := Int.natCast_pos.mpr h
  simp only [Int.compare_eq_ite_lt, Int.mul_lt_mul_right hpos]

/-- Numbers are ordered by their ranks. -/
theorem compare?_ofBinary64 (x y : Binary64) :
    (ofBinary64 x).compare? (ofBinary64 y) =
      x.rank.bind fun a => y.rank.map fun b => compare a b := by
  cases x with
  | nan => rfl
  | infinite s =>
    cases y with
    | nan => rfl
    | infinite t => cases s <;> cases t <;> decide +kernel
    | finite t n hn => exact congrArg some (compare_infinite_left s t hn.1).symm
  | finite s m hm =>
    cases y with
    | nan => rfl
    | infinite t => exact congrArg some (compare_infinite_right t s hm.1).symm
    | finite t n hn => exact congrArg some (compare_mul_right unitsPerOne_pos)

end Quantity

namespace Value

variable (x y : Binary64)

theorem compareNumbers_float :
    compareNumbers (.float x) (.float y) =
      .ok (x.rank.bind fun a => y.rank.map fun b => compare a b) := by
  rw [← Quantity.compare?_ofBinary64]
  rfl

theorem compare?_float :
    compare? (.float x) (.float y) =
      .ok (x.rank.bind fun a => y.rank.map fun b => compare a b) := by
  rw [compare?, ← compareNumbers_float]
  · rfl
  all_goals nofun

theorem lt_float : lt (.float x) (.float y) = .ok (decide (x < y)) := by
  have hdecide : decide (x < y) = compareBy (fun a b => a < b) x y := Bool.decide_eq_true
  rw [lt, compare?_float, hdecide, compareBy]
  cases x.rank with
  | none => rfl
  | some a =>
    cases y.rank with
    | none => rfl
    | some b =>
      refine congrArg Except.ok (Bool.eq_iff_iff.mpr ?_)
      simp [Int.compare_eq_lt]

theorem le_float : le (.float x) (.float y) = .ok (decide (x ≤ y)) := by
  have hdecide : decide (x ≤ y) = compareBy (fun a b => a ≤ b) x y := Bool.decide_eq_true
  rw [le, compare?_float, hdecide, compareBy]
  cases x.rank with
  | none => rfl
  | some a =>
    cases y.rank with
    | none => rfl
    | some b =>
      refine congrArg Except.ok (Bool.eq_iff_iff.mpr ?_)
      simp [Int.compare_eq_lt, Int.le_iff_lt_or_eq]

theorem eqNumber_float : eqNumber (.float x) y = x.eqv y := by
  rw [eqNumber, compareNumbers_float, eqv, compareBy]
  cases x.rank with
  | none => rfl
  | some a =>
    cases y.rank with
    | none => rfl
    | some b =>
      dsimp only [Option.bind_some, Option.map_some]
      cases horder : compare a b with
      | eq => exact (decide_eq_true (Int.compare_eq_eq.mp horder)).symm
      | lt => exact (decide_eq_false (Int.compare_eq_lt.mp horder).ne).symm
      | gt => exact (decide_eq_false (Int.compare_eq_gt.mp horder).ne').symm

/-! ### Arithmetic -/

theorem sub_float : sub (.float x) (.float y) = .ok (.float (x - y)) := rfl

end Value

end FuzzyAlgebra

import FuzzyAlgebra.Proofs.Binary64.Rounding
import FuzzyAlgebra.Proofs.FuzzySet.Evaluation

/-!
# Operators counted in units

A degree is a whole number of units, from none up to those of one. On these numbers every operator
is plain arithmetic rounded once, and moving a result into range only ever cuts a sum off at one.
Above the leaves there is no negative zero, so equal units are equal degrees.
-/

namespace FuzzyAlgebra

open Binary64

namespace Degree

variable {d e : Degree} {x : Binary64}

def units (d : Degree) : Nat :=
  match d.number with
  | .finite _ units _ => units
  | _ => 0

theorem rank_number (d : Degree) : d.number.rank = some (d.units : Int) := by
  obtain ⟨number, hnonneg, hle⟩ := d
  cases number with
  | nan => cases hle
  | infinite negative => cases isFinite_of_unit hnonneg hle
  | finite negative units hunits =>
    cases negative with
    | false => rfl
    | true =>
      have hneg : (0 : Int) ≤ -(units : Int) := (le_iff_of_rank rank_zero rfl).mp hnonneg
      have hzero : -(units : Int) = units := by omega
      exact congrArg some hzero

theorem number_le_iff : d.number ≤ e.number ↔ d.units ≤ e.units := by
  rw [le_iff_of_rank d.rank_number e.rank_number]
  exact Int.ofNat_le

theorem units_le (d : Degree) : d.units ≤ unitsPerOne :=
  Int.ofNat_le.mp ((le_iff_of_rank d.rank_number rank_one).mp d.le_one)

theorem spacing_dvd_units (d : Degree) : spacing d.units ∣ d.units := by
  unfold units
  split
  · rename_i hunits _
    exact hunits.2
  · exact Nat.dvd_zero _

theorem exists_eq_finite (h : d.number ≠ negativeZero) :
    ∃ hunits, d.number = .finite false d.units hunits := by
  obtain ⟨number, hnonneg, hle⟩ := d
  have hrank := rank_number ⟨number, hnonneg, hle⟩
  cases number with
  | nan => cases hle
  | infinite negative => cases isFinite_of_unit hnonneg hle
  | finite negative units hunits =>
    cases negative with
    | false => exact ⟨hunits, rfl⟩
    | true =>
      obtain rfl := eq_zero_of_signed_true (Option.some.inj hrank)
      exact absurd rfl h

/-- Only the two zeros have the same units without being the same number. -/
theorem eq_of_units_eq (hd : d.number ≠ negativeZero) (he : e.number ≠ negativeZero)
    (h : d.units = e.units) : d = e := by
  obtain ⟨hdunits, hdnumber⟩ := exists_eq_finite hd
  obtain ⟨heunits, henumber⟩ := exists_eq_finite he
  have hnumber : d.number = e.number := by
    rw [hdnumber, henumber]
    congr 1
  cases d
  cases e
  cases hnumber
  rfl

theorem units_clipped {r : Int} (hx : x.isNaN = false) (hr : x.rank = some r) :
    (clipped x hx).units = min unitsPerOne r.toNat := by
  have hrank := rank_min rank_one (rank_max rank_zero hr)
  rw [← clip_eq hx] at hrank
  have hunits : ((clipped x hx).units : Int) = min (unitsPerOne : Int) (max 0 r) :=
    Option.some.inj ((clipped x hx).rank_number.symm.trans hrank)
  omega

end Degree

namespace Operator

variable {a b t : Binary64} {m n k : Nat}

theorem toNat_roundedRank (r : Int) :
    (roundedRank r).toNat = min (roundUnits r.toNat 1) limit := by
  by_cases hneg : r < 0
  · rw [roundedRank, decide_eq_true hneg, Int.toNat_of_nonpos hneg.le, roundUnits_zero Nat.one_pos,
      Nat.zero_min]
    exact Int.toNat_neg_natCast _
  · have habs : r.natAbs = r.toNat := by omega
    rw [roundedRank, decide_eq_false hneg, habs]
    rfl

/-- What an operator makes of operands of so many units. The threshold is in units, too. -/
def combineUnits (op : Operator) (m n k : Nat) : Nat :=
  match op with
  | union => max m n
  | intersection => min m n
  | complement => roundUnits (unitsPerOne - m) 1
  | add => min unitsPerOne (roundUnits (m + n) 1)
  | multiply => roundUnits (m * n) unitsPerOne
  | difference => roundUnits (m - n) 1
  | alphaCut => if k ≤ m then unitsPerOne else 0

theorem units_combinedDegree (op : Operator) (ha : a.isFinite = true) (hb : b.isFinite = true)
    (hm : a.rank = some (m : Int)) (hn : b.rank = some (n : Int)) (hk : t.rank = some (k : Int))
    (hmle : m ≤ unitsPerOne) (hnle : n ≤ unitsPerOne) :
    (op.combinedDegree a b t ha hb).units = op.combineUnits m n k := by
  have hlimit := unitsPerOne_le_limit
  cases op with
  | union =>
    refine (Degree.units_clipped _ (rank_max hm hn)).trans ?_
    rw [combineUnits]
    omega
  | intersection =>
    refine (Degree.units_clipped _ (rank_min hm hn)).trans ?_
    rw [combineUnits]
    omega
  | complement =>
    refine (Degree.units_clipped _ (rank_sub isFinite_one ha rank_one hm)).trans ?_
    have hround : roundUnits (unitsPerOne - m) 1 ≤ unitsPerOne :=
      roundUnits_le_unitsPerOne Nat.one_pos (by omega)
    rw [toNat_roundedRank, Int.toNat_sub, combineUnits]
    omega
  | add =>
    refine (Degree.units_clipped _ (rank_min rank_one (rank_add ha hb hm hn))).trans ?_
    have hround := toNat_roundedRank (m + n)
    have hsum : ((m : Int) + n).toNat = m + n := by omega
    rw [hsum] at hround
    rw [combineUnits]
    omega
  | multiply =>
    refine (Degree.units_clipped _ (rank_mul ha hb hm hn)).trans ?_
    have hround : roundUnits (m * n) unitsPerOne ≤ unitsPerOne :=
      roundUnits_le_unitsPerOne unitsPerOne_pos (Nat.mul_le_mul hmle hnle)
    rw [combineUnits]
    omega
  | difference =>
    refine (Degree.units_clipped _ (rank_max rank_zero (rank_sub ha hb hm hn))).trans ?_
    have hround : roundUnits (m - n) 1 ≤ unitsPerOne :=
      roundUnits_le_unitsPerOne Nat.one_pos (by omega)
    have hsub := toNat_roundedRank (m - n)
    rw [Int.toNat_sub] at hsub
    rw [combineUnits]
    omega
  | alphaCut =>
    by_cases hcut : t ≤ a
    · have hrank : (combineNumbers alphaCut a b t).rank = some (unitsPerOne : Int) := by
        rw [combineNumbers, if_pos hcut, rank_one]
      rw [le_iff_of_rank hk hm, Int.ofNat_le] at hcut
      refine (Degree.units_clipped _ hrank).trans ?_
      rw [combineUnits, if_pos hcut]
      omega
    · have hrank : (combineNumbers alphaCut a b t).rank = some 0 := by
        rw [combineNumbers, if_neg hcut, rank_zero]
      rw [le_iff_of_rank hk hm, Int.ofNat_le] at hcut
      refine (Degree.units_clipped _ hrank).trans ?_
      rw [combineUnits, if_neg hcut]
      omega

def Threshold.units {op : Operator} (t : op.Threshold) : Nat :=
  match t.val with
  | some d => d.units
  | none => 0

theorem Threshold.rank_number {op : Operator} (t : op.Threshold) :
    t.number.rank = some (t.units : Int) := by
  obtain ⟨t, ht⟩ := t
  cases t with
  | none => rfl
  | some d => exact d.rank_number

theorem Threshold.units_le {op : Operator} (t : op.Threshold) : t.units ≤ unitsPerOne := by
  obtain ⟨t, ht⟩ := t
  cases t with
  | none => exact Nat.zero_le _
  | some d => exact d.units_le

end Operator

namespace UnaryOperation

variable (operation : UnaryOperation) (d : Degree)

theorem units_degree : (operation.degree d).units =
    operation.operator.combineUnits d.units 0 operation.threshold.units :=
  Operator.units_combinedDegree _ _ _ d.rank_number rank_zero operation.threshold.rank_number
    d.units_le (Nat.zero_le _)

theorem degree_ne_negativeZero : (operation.degree d).number ≠ negativeZero :=
  Operator.combinedDegree_ne_negativeZero _ _

end UnaryOperation

namespace BinaryOperation

variable (operation : BinaryOperation) (d e : Degree)

theorem units_degree : (operation.degree d e).units =
    operation.operator.combineUnits d.units e.units 0 :=
  Operator.units_combinedDegree _ _ _ d.rank_number e.rank_number rank_zero d.units_le e.units_le

theorem degree_ne_negativeZero : (operation.degree d e).number ≠ negativeZero :=
  Operator.combinedDegree_ne_negativeZero _ _

end BinaryOperation

end FuzzyAlgebra

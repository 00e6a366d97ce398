import FuzzyAlgebra.FuzzySet.Membership
import FuzzyAlgebra.Proofs.Binary64.Order
import FuzzyAlgebra.Proofs.Trace

/-!
# Operators are total on degrees

A number other than NaN can be moved into range, and what an operator makes of two degrees is never
NaN. So `apply` succeeds, without a log record, on degrees in the right number and a threshold that
fits: its checks repeat what the types of operations already say.
-/

namespace FuzzyAlgebra

namespace Degree

theorem isFinite_number (d : Degree) : d.number.isFinite = true :=
  Binary64.isFinite_of_unit d.nonneg d.le_one

theorem isNaN_number (d : Degree) : d.number.isNaN = false :=
  Binary64.isNaN_of_isFinite d.isFinite_number

section Clip

open Binary64

variable {x : Binary64}

theorem clip_eq (h : x.isNaN = false) : clip x = Binary64.min 1 (Binary64.max 0 x) := by
  rw [clip, h]
  rfl

theorem max_zero_cases (x : Binary64) :
    Binary64.max 0 x = 0 ∨ (Binary64.max 0 x = x ∧ 0 < x) := by
  unfold Binary64.max
  split
  · rename_i h
    exact .inr ⟨rfl, h⟩
  · exact .inl rfl

theorem min_one_cases (x : Binary64) :
    Binary64.min 1 x = 1 ∨ (Binary64.min 1 x = x ∧ x < 1) := by
  unfold Binary64.min
  split
  · rename_i h
    exact .inr ⟨rfl, h⟩
  · exact .inl rfl

theorem zero_le_clip (h : x.isNaN = false) : 0 ≤ clip x := by
  rw [clip_eq h]
  rcases min_one_cases (Binary64.max 0 x) with hone | ⟨hmin, -⟩
  · rw [hone]
    exact Binary64.zero_le_one
  · rw [hmin]
    rcases max_zero_cases x with hzero | ⟨hmax, hpos⟩
    · rw [hzero]
      exact Binary64.zero_le_zero
    · rw [hmax]
      exact Binary64.le_of_lt hpos

theorem clip_le_one (h : x.isNaN = false) : clip x ≤ 1 := by
  rw [clip_eq h]
  rcases min_one_cases (Binary64.max 0 x) with hone | ⟨hmin, hlt⟩
  · rw [hone]
    exact Binary64.one_le_one
  · rw [hmin]
    exact Binary64.le_of_lt hlt

/-- The lower end of the range is positive zero, and it wins against negative zero. -/
theorem clip_ne_negativeZero (h : x.isNaN = false) : clip x ≠ negativeZero := by
  rw [clip_eq h]
  rcases min_one_cases (Binary64.max 0 x) with hone | ⟨hmin, -⟩
  · rw [hone]
    decide +kernel
  · rw [hmin]
    rcases max_zero_cases x with hzero | ⟨hmax, hpos⟩
    · rw [hzero]
      decide
    · rw [hmax]
      rintro rfl
      exact absurd hpos (by decide)

def clipped (x : Binary64) (h : x.isNaN = false) : Degree := ⟨clip x, zero_le_clip h, clip_le_one h⟩

theorem clampNumber_eq_ok (h : x.isNaN = false) : clampNumber x = .ok (clipped x h) := by
  have hsome : ofNumber? (clip x) = some (clipped x h) := ofNumber?_eq_some_iff.mpr rfl
  rw [clampNumber, ofNumber, hsome]

end Clip

end Degree

namespace Operator

variable {op : Operator} {a b t : Binary64}

theorem isNaN_combineNumbers (ha : a.isFinite = true) (hb : b.isFinite = true) :
    (op.combineNumbers a b t).isNaN = false := by
  have hnan := Binary64.isNaN_of_isFinite ha
  cases op with
  | union => exact (Binary64.isNaN_max a b).trans hnan
  | intersection => exact (Binary64.isNaN_min a b).trans hnan
  | complement => exact Binary64.isNaN_sub Binary64.isFinite_one ha
  | add => exact (Binary64.isNaN_min 1 (a + b)).trans Binary64.isNaN_one
  | multiply => exact Binary64.isNaN_mul ha hb
  | difference => exact (Binary64.isNaN_max 0 (a - b)).trans Binary64.isNaN_zero
  | alphaCut =>
    simp only [combineNumbers]
    split
    · exact Binary64.isNaN_one
    · exact Binary64.isNaN_zero

def combinedDegree (op : Operator) (a b t : Binary64) (ha : a.isFinite = true)
    (hb : b.isFinite = true) : Degree :=
  .clipped (op.combineNumbers a b t) (isNaN_combineNumbers ha hb)

/-- The number that a cut compares with; nothing else looks at it. -/
def Threshold.number (t : op.Threshold) : Binary64 :=
  match t.val with
  | some d => d.number
  | none => 0

/-- A threshold that was checked once passes the check again, as it is. -/
theorem validateThreshold_degreeValue (t : op.Threshold) :
    op.validateThreshold (FuzzySet.degreeValue t.val) = pure t := by
  obtain ⟨t, ht⟩ := t
  unfold validateThreshold
  cases t with
  | none =>
    have hno : ¬ op.requiresThreshold = true := by
      rw [← ht]
      decide
    rw [dif_neg hno]
    rfl
  | some d =>
    have hyes : op.requiresThreshold = true := by
      rw [← ht]
      rfl
    rw [dif_pos hyes]
    rfl

theorem applyTo_degreeValue {b : Value} {y : Binary64} (d : Degree) (t : op.Threshold)
    (hb : numberOrZero b = .ok y) (hy : y.isFinite = true) :
    apply.applyTo op (.degree d) b (FuzzySet.degreeValue t.val) =
      pure (op.combinedDegree d.number y t.number d.isFinite_number hy) := by
  have hnan : (op.combineNumbers d.number y t.number).isNaN = false :=
    isNaN_combineNumbers d.isFinite_number hy
  have hclamp := Degree.clampNumber_eq_ok hnan
  rw [apply.applyTo, validateThreshold_degreeValue, pure_bind, hb]
  change Traced.ofExcept (Degree.clampNumber (op.combineNumbers d.number y t.number)) = _
  rw [hclamp]
  rfl

theorem apply_degree (hop : op.isBinary = false) (d : Degree) (t : op.Threshold) :
    op.apply (.degree d) .absent (FuzzySet.degreeValue t.val) =
      pure (op.combinedDegree d.number 0 t.number d.isFinite_number Binary64.isFinite_zero) := by
  unfold apply
  rw [hop]
  exact applyTo_degreeValue d t rfl Binary64.isFinite_zero

theorem requiresThreshold_of_isBinary (hop : op.isBinary = true) : op.requiresThreshold = false := by
  revert hop
  cases op <;> decide

theorem apply_degrees (hop : op.isBinary = true) (d e : Degree) :
    op.apply (.degree d) (.degree e) .absent =
      pure (op.combinedDegree d.number e.number 0 d.isFinite_number e.isFinite_number) := by
  have hnone : (none : Option Degree).isSome = op.requiresThreshold :=
    (requiresThreshold_of_isBinary hop).symm
  unfold apply
  rw [hop]
  exact applyTo_degreeValue d ⟨none, hnone⟩ rfl e.isFinite_number

end Operator

end FuzzyAlgebra

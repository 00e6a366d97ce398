import FuzzyAlgebra.Proofs.Binary64.Negation
import FuzzyAlgebra.Proofs.FuzzySet.Lattice
import FuzzyAlgebra.Proofs.Operator.Threshold

/-!
# NaN among the operands

NaN passes the check of a degree under no circumstances, but it has to reach the check. Maxima and
minima keep their first operand unless a comparison favours the second, and no comparison favours
anything where one side is NaN. So union and intersection see NaN only in their first operand; a sum
is compared with one and a difference with zero, and both come out as that bound; and a cut takes NaN
for a number below its threshold. Only complement and product let every NaN through.
-/

namespace FuzzyAlgebra

open Binary64

/-! ### Arithmetic with NaN -/

namespace Binary64

variable {x y : Binary64}

theorem isNaN_add_of_isNaN (h : x.isNaN = true ∨ y.isNaN = true) : (x + y).isNaN = true := by
  rcases h with hx | hy
  · rw [eq_nan_of_isNaN hx]
    rfl
  · rw [eq_nan_of_isNaN hy]
    cases x <;> rfl

theorem isNaN_sub_of_isNaN (h : x.isNaN = true ∨ y.isNaN = true) : (x - y).isNaN = true :=
  isNaN_add_of_isNaN (h.imp_right (isNaN_neg y).trans)

theorem isNaN_mul_of_isNaN (h : x.isNaN = true ∨ y.isNaN = true) : (x * y).isNaN = true := by
  rcases h with hx | hy
  · rw [eq_nan_of_isNaN hx]
    rfl
  · rw [eq_nan_of_isNaN hy, mul_nan]
    rfl

theorem max_eq_left_of_isNaN (h : x.isNaN = true ∨ y.isNaN = true) : Binary64.max x y = x := by
  unfold Binary64.max
  apply if_neg
  intro hlt
  simp [isNaN_left_of_lt hlt, isNaN_right_of_lt hlt] at h

theorem min_eq_left_of_isNaN (h : x.isNaN = true ∨ y.isNaN = true) : Binary64.min x y = x := by
  unfold Binary64.min
  apply if_neg
  intro hlt
  simp [isNaN_left_of_lt hlt, isNaN_right_of_lt hlt] at h

end Binary64

namespace Operator

variable {op : Operator} {x y t : Binary64} {v : Value} {cut : Option Degree}

/-- One of the operands that the operator consumes is NaN. -/
def ConsumesNaN (op : Operator) (x y : Binary64) : Prop :=
  x.isNaN = true ∨ (op.isBinary = true ∧ y.isNaN = true)

theorem ConsumesNaN.left_or_right (h : op.ConsumesNaN x y) : x.isNaN = true ∨ y.isNaN = true :=
  h.imp_right And.right

theorem ConsumesNaN.left (h : op.ConsumesNaN x y) (hop : op.isBinary = false) : x.isNaN = true := by
  rcases h with hx | ⟨hbinary, -⟩
  · exact hx
  · rw [hop] at hbinary
    cases hbinary

/-- The operands in which NaN shows in the combination. -/
def Exposes (op : Operator) (x y : Binary64) : Prop :=
  match op with
  | union => x.isNaN = true
  | intersection => x.isNaN = true
  | complement => x.isNaN = true
  | multiply => x.isNaN = true ∨ y.isNaN = true
  | add => False
  | difference => False
  | alphaCut => False

/-- What stands for the combination where it hides NaN. -/
def cover (op : Operator) (x : Binary64) : Binary64 :=
  match op with
  | add => 1
  | difference => 0
  | alphaCut => 0
  | _ => x

theorem isNaN_combineNumbers_of_exposes (h : op.Exposes x y) :
    (op.combineNumbers x y t).isNaN = true := by
  cases op with
  | union => exact (isNaN_max x y).trans h
  | intersection => exact (isNaN_min x y).trans h
  | complement => exact isNaN_sub_of_isNaN (.inr h)
  | multiply => exact isNaN_mul_of_isNaN h
  | add => exact h.elim
  | difference => exact h.elim
  | alphaCut => exact h.elim

theorem combineNumbers_of_not_exposes (hnan : op.ConsumesNaN x y) (h : ¬ op.Exposes x y) :
    op.combineNumbers x y t = op.cover x := by
  have heither := hnan.left_or_right
  cases op with
  | union => exact max_eq_left_of_isNaN heither
  | intersection => exact min_eq_left_of_isNaN heither
  | complement => exact absurd (hnan.left rfl) h
  | multiply => exact absurd heither h
  | add => exact min_eq_left_of_isNaN (.inr (isNaN_add_of_isNaN heither))
  | difference => exact max_eq_left_of_isNaN (.inr (isNaN_sub_of_isNaN heither))
  | alphaCut =>
    have hx : x.isNaN = true := hnan.left rfl
    refine if_neg fun hle => ?_
    rw [isNaN_right_of_le hle] at hx
    cases hx

theorem isNaN_cover (hnan : op.ConsumesNaN x y) (h : ¬ op.Exposes x y) :
    (op.cover x).isNaN = false := by
  cases op with
  | union => exact Bool.eq_false_iff.mpr h
  | intersection => exact Bool.eq_false_iff.mpr h
  | complement => exact Bool.eq_false_iff.mpr h
  | multiply => exact absurd hnan.left_or_right h
  | add => exact isNaN_one
  | difference => exact isNaN_zero
  | alphaCut => exact isNaN_zero

/-! ### Calls on numbers -/

/-- The second operand of a call. A unary operator is called without one. -/
def operand (op : Operator) (y : Binary64) : Value := if op.isBinary then .float y else .absent

/-- A call on two numbers, or on the first one if the operator is unary. -/
def applyNumbers (op : Operator) (x y : Binary64) (threshold : Value) : Except Fault Degree :=
  (op.apply (.float x) (op.operand y) threshold).result

theorem apply_operand (op : Operator) (a : Value) (y : Binary64) (v : Value) :
    op.apply a (op.operand y) v = apply.applyTo op a (op.operand y) v := by
  unfold apply operand
  cases op.isBinary <;> rfl

/-- A unary operator is given zero for its second operand, and does not look at it. -/
theorem exists_numberOrZero_operand (op : Operator) (x y t : Binary64) :
    ∃ z, numberOrZero (op.operand y) = .ok z ∧
      op.combineNumbers x z t = op.combineNumbers x y t := by
  cases op <;> exact ⟨_, rfl, rfl⟩

theorem applyNumbers_eq {cut : op.Threshold} (hcut : op.TakesThreshold v cut.val) :
    op.applyNumbers x y v = Degree.clampNumber (op.combineNumbers x y cut.number) := by
  obtain ⟨z, hz, hcombine⟩ := op.exists_numberOrZero_operand x y cut.number
  rw [applyNumbers, apply_operand, apply.applyTo,
    Traced.bind_of_ok (result_validateThreshold_eq_ok_iff.mpr hcut), hz, ← hcombine]
  rfl

theorem applyNumbers_of_isNaN {cut : op.Threshold} (hcut : op.TakesThreshold v cut.val)
    (h : (op.combineNumbers x y cut.number).isNaN = true) :
    op.applyNumbers x y v = .error (.failure (.notADegree .nan)) := by
  rw [applyNumbers_eq hcut, eq_nan_of_isNaN h]
  rfl

theorem exists_applyNumbers_eq_ok {cut : op.Threshold} (hcut : op.TakesThreshold v cut.val)
    (h : (op.combineNumbers x y cut.number).isNaN = false) :
    ∃ d, op.applyNumbers x y v = .ok d ∧
      d.number = Degree.clip (op.combineNumbers x y cut.number) := by
  rw [applyNumbers_eq hcut]
  exact ⟨_, Degree.clampNumber_eq_ok h, rfl⟩

theorem exists_applyNumbers_iff {cut : op.Threshold} (hcut : op.TakesThreshold v cut.val) :
    (∃ d, op.applyNumbers x y v = .ok d) ↔ (op.combineNumbers x y cut.number).isNaN = false := by
  constructor
  · rintro ⟨d, hd⟩
    apply Bool.eq_false_iff.mpr
    intro hnan
    rw [applyNumbers_of_isNaN hcut hnan] at hd
    cases hd
  · intro hnumber
    obtain ⟨d, hd, -⟩ := exists_applyNumbers_eq_ok hcut hnumber
    exact ⟨d, hd⟩

/-- The operands of a sum and of a product can always be exchanged, those of a union and of an
intersection if both are NaN or neither is. -/
theorem Commutes.isNaN_combineNumbers_iff (hop : Commutes op) :
    ((op.combineNumbers x y t).isNaN = false ↔ (op.combineNumbers y x t).isNaN = false) ↔
      (op = .union ∨ op = .intersection → x.isNaN = y.isNaN) := by
  have hiff (p q : Bool) : (p = false ↔ q = false) ↔ p = q := by cases p <;> cases q <;> decide
  rw [hiff]
  cases hop with
  | union => simp only [combineNumbers, isNaN_max, true_or, true_imp_iff]
  | intersection => simp only [combineNumbers, isNaN_min, or_true, true_imp_iff]
  | add => simp only [combineNumbers, isNaN_min, reduceCtorEq, or_self, false_imp_iff]
  | multiply =>
    simp only [combineNumbers, Binary64.mul_comm x y, reduceCtorEq, or_self, false_imp_iff]

/-- **Operators and NaN.** Where an operand that the operator consumes is NaN, the call fails the
check of degrees if the operator exposes it, and otherwise returns a degree that covers it up. An
exchange of the operands never decides whether a sum or a product is returned; for a union or an
intersection it does, unless both operands are NaN or neither is. -/
theorem apply_to_nan (op : Operator) (x y : Binary64) (hcut : op.TakesThreshold v cut) :
    (op.ConsumesNaN x y →
      (op.Exposes x y → ∃ f, op.applyNumbers x y v = .error (.failure f) ∧
        f.kind = .outOfRange ∧ f.code = .valueOutOfRange) ∧
      (¬ op.Exposes x y → ∃ d, op.applyNumbers x y v = .ok d ∧
        d.number = Degree.clip (op.cover x))) ∧
    (op.Commutes →
      (((∃ d, op.applyNumbers x y v = .ok d) ↔ ∃ d, op.applyNumbers y x v = .ok d) ↔
        (op = union ∨ op = intersection → x.isNaN = y.isNaN))) := by
  obtain ⟨cut, rfl⟩ := hcut.exists_cut
  refine ⟨fun hnan => ⟨fun hexposed => ?_, fun hhidden => ?_⟩, fun hop => ?_⟩
  · exact ⟨_, applyNumbers_of_isNaN hcut (isNaN_combineNumbers_of_exposes hexposed), rfl, rfl⟩
  · have hcover := combineNumbers_of_not_exposes (t := cut.number) hnan hhidden
    have hnumber : (op.combineNumbers x y cut.number).isNaN = false := by
      rw [hcover]
      exact isNaN_cover hnan hhidden
    rw [← hcover]
    exact exists_applyNumbers_eq_ok hcut hnumber
  · rw [exists_applyNumbers_iff hcut, exists_applyNumbers_iff hcut]
    exact hop.isNaN_combineNumbers_iff

/-- A product exposes the NaN, a cut covers it up with zero, and a union returns it in one order
only. -/
theorem apply_to_nan_on_the_right :
    (∃ f, multiply.applyNumbers 0 .nan .absent = .error (.failure f) ∧
      f.kind = .outOfRange ∧ f.code = .valueOutOfRange) ∧
    (∃ d, alphaCut.applyNumbers .nan .nan (.float 0) = .ok d ∧ d.number = Degree.clip 0) ∧
    ¬ ((∃ d, union.applyNumbers 0 .nan .absent = .ok d) ↔
      ∃ d, union.applyNumbers .nan 0 .absent = .ok d) := by
  have hzero : alphaCut.TakesThreshold (.float 0)
      (some ⟨0, Binary64.zero_le_zero, Binary64.zero_le_one⟩) :=
    .degree rfl rfl rfl
  have hnan : (nan : Binary64).isNaN = true := rfl
  refine ⟨?_, ?_, ?_⟩
  · exact ((apply_to_nan multiply 0 nan (.nothing rfl)).1 (.inr ⟨rfl, hnan⟩)).1 (.inr hnan)
  · exact ((apply_to_nan alphaCut .nan .nan hzero).1 (.inl rfl)).2 id
  · rw [(apply_to_nan union 0 .nan (.nothing rfl)).2 .union]
    intro hboth
    cases hboth (.inl rfl)

/-- The union of one half and NaN is one half, and the union of NaN and one half is no degree. -/
theorem union_covers_second_nan :
    (∃ d, (union.apply (.float (ofQuotient 1 2)) (.float .nan) .absent).result = .ok d ∧
      d.number = ofQuotient 1 2) ∧
    (union.apply (.float .nan) (.float (ofQuotient 1 2)) .absent).result =
      .error (.failure (.notADegree .nan)) := by
  let cut : union.Threshold := ⟨none, rfl⟩
  have hnothing : union.TakesThreshold .absent cut.val := .nothing rfl
  have hcover : (Binary64.max (ofQuotient 1 2) nan).isNaN = false ∧
      Degree.clip (Binary64.max (ofQuotient 1 2) nan) = ofQuotient 1 2 := by
    decide +kernel
  constructor
  · obtain ⟨d, hd, hnumber⟩ := exists_applyNumbers_eq_ok (y := nan) hnothing hcover.1
    exact ⟨d, hd, hnumber.trans hcover.2⟩
  · exact applyNumbers_of_isNaN (y := ofQuotient 1 2) hnothing (isNaN_max nan _)

end Operator

end FuzzyAlgebra

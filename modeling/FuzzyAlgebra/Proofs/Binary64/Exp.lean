import FuzzyAlgebra.Binary64.Exp
import FuzzyAlgebra.Proofs.Binary64.Monotone

/-!
# The exponential of a number that is not positive

Every sum and every square of the series is at least one, so the growth is, and its reciprocal is at
most one. At zero it is one exactly. The exponential of minus infinity is zero. Each step of the
series is monotone, and the reciprocal of what grows falls, so the exponential is monotone as well.
-/

namespace FuzzyAlgebra.Binary64

namespace Exp

/-- One in fixed point. -/
def unit : Nat := 2 ^ seriesBits

theorem unit_pos : 0 < unit := Nat.two_pow_pos _

theorem unit_le_series (t fuel n : Nat) : unit ≤ series t fuel n := by
  cases fuel with
  | zero => exact Nat.le_refl _
  | succ fuel => exact Nat.le_add_right _ _

theorem series_zero (fuel n : Nat) : series 0 fuel n = unit := by
  cases fuel with
  | zero => rfl
  | succ fuel => rw [series, Nat.mul_zero, Nat.zero_div, Nat.add_zero, unit]

theorem square_unit : square unit = unit := Nat.mul_div_cancel unit unit_pos

theorem unit_le_square {s : Nat} (h : unit ≤ s) : unit ≤ square s := by
  calc unit = square unit := square_unit.symm
    _ ≤ square s := Nat.div_le_div_right (Nat.mul_le_mul h h)

theorem unit_le_growth (t : Nat) : unit ≤ growth t := by
  have hrepeat (n : Nat) : unit ≤ Nat.repeat square n (series t 40 1) := by
    induction n with
    | zero => exact unit_le_series t 40 1
    | succ n ih => exact unit_le_square ih
  exact hrepeat halvings

theorem growth_zero : growth 0 = unit := by
  have hrepeat (n : Nat) : Nat.repeat square n unit = unit := by
    induction n with
    | zero => rfl
    | succ n ih => rw [Nat.repeat, ih, square_unit]
  rw [growth, series_zero, hrepeat]

theorem argument_zero : argument 0 = 0 := by
  rw [argument, Nat.zero_mul, Nat.zero_div, Nat.zero_min]

variable {t t' : Nat}

theorem series_mono (h : t ≤ t') (fuel n : Nat) : series t fuel n ≤ series t' fuel n := by
  induction fuel generalizing n with
  | zero => exact Nat.le_refl _
  | succ fuel ih =>
    apply Nat.add_le_add_left
    apply Nat.div_le_div_right
    exact Nat.mul_le_mul (ih (n + 1)) h

theorem square_mono {s s' : Nat} (h : s ≤ s') : square s ≤ square s' :=
  Nat.div_le_div_right (Nat.mul_le_mul h h)

theorem growth_mono (h : t ≤ t') : growth t ≤ growth t' := by
  have hrepeat (n : Nat) :
      Nat.repeat square n (series t 40 1) ≤ Nat.repeat square n (series t' 40 1) := by
    induction n with
    | zero => exact series_mono h 40 1
    | succ n ih => exact square_mono ih
  exact hrepeat halvings

theorem argument_mono {m n : Nat} (h : m ≤ n) : argument m ≤ argument n :=
  min_le_min_right _ (Nat.div_le_div_right (Nat.mul_le_mul_right _ h))

end Exp

open Exp

theorem ofRatio_unit {num den : Nat} (hden : 0 < den) (h : num ≤ unitsPerOne * den) :
    0 ≤ ofRatio false num den ∧ ofRatio false num den ≤ 1 :=
  unit_of_rank (rank_ofRatio false num den)
    ((Nat.min_le_left _ _).trans (roundUnits_le_unitsPerOne hden h))

theorem exp_finite_true {units : Nat} (h : Representable units) :
    exp (finite true units h) = ofRatio false (unit * unitsPerOne) (growth (argument units)) := by
  rw [exp, if_pos rfl, unit]

theorem exp_finite_false {units : Nat} (h : Representable units) :
    exp (finite false units h) = ofRatio false (growth (argument units) * unitsPerOne) unit := by
  rw [exp, if_neg Bool.false_ne_true, unit]

/-- Zero has either sign, and one exponential. -/
theorem exp_of_nonpos {negative : Bool} {units : Nat} (h : Representable units)
    (hle : finite negative units h ≤ 0) :
    exp (finite negative units h) =
      ofRatio false (unit * unitsPerOne) (growth (argument units)) := by
  cases negative with
  | true => exact exp_finite_true h
  | false =>
    obtain rfl : units = 0 := by
      have hzero : (units : Int) ≤ 0 := (le_iff_of_rank rfl rank_zero).mp hle
      omega
    rw [exp_finite_false, argument_zero, growth_zero]

theorem exp_infinite_true : exp (infinite true) = 0 := rfl

/-- The exponential of a number that is not positive lies between zero and one. -/
theorem exp_unit {y : Binary64} (h : y ≤ 0) : 0 ≤ exp y ∧ exp y ≤ 1 := by
  cases y with
  | nan => cases h
  | infinite negative =>
    cases negative with
    | true =>
      rw [exp_infinite_true]
      exact ⟨zero_le_zero, zero_le_one⟩
    | false => cases eq_infinite_false_of_le h
  | finite negative units hunits =>
    rw [exp_of_nonpos hunits h]
    refine ofRatio_unit (unit_pos.trans_le (unit_le_growth _)) ?_
    rw [Nat.mul_comm]
    exact Nat.mul_le_mul_left _ (unit_le_growth _)

/-- Up to zero, the exponential is monotone. -/
theorem exp_le_exp {x y : Binary64} (hxy : x ≤ y) (hy : y ≤ 0) : exp x ≤ exp y := by
  cases x with
  | nan => cases hxy
  | infinite s =>
    cases s with
    | true =>
      rw [exp_infinite_true]
      exact (exp_unit hy).1
    | false => cases eq_infinite_false_of_le (le_trans hxy hy)
  | finite s m hm =>
    cases y with
    | nan => cases hxy
    | infinite t =>
      cases t with
      | true => cases eq_infinite_true_of_le hxy
      | false => cases eq_infinite_false_of_le hy
    | finite t n hn =>
      have hnm : n ≤ m := le_of_signed_le_signed ((le_iff_of_rank rfl rfl).mp hxy)
        ((le_iff_of_rank rfl rank_zero).mp hy)
      have hgrowth : growth (argument n) ≤ growth (argument m) := growth_mono (argument_mono hnm)
      rw [exp_of_nonpos hm (le_trans hxy hy), exp_of_nonpos hn hy,
        le_iff_of_rank (rank_ofRatio _ _ _) (rank_ofRatio _ _ _)]
      apply Int.ofNat_le.mpr
      apply min_le_min_right
      exact roundUnits_anti _ (unit_pos.trans_le (unit_le_growth _)) hgrowth

theorem exp_eq_one {x : Binary64} (h : x.eqv 0 = true) : exp x = 1 := by
  obtain ⟨s, rfl⟩ := exists_eq_zero_of_rank (eqv_zero_iff.mp h)
  have hone : ofUnits false unitsPerOne = 1 := by decide +kernel
  have hunit : roundUnits (unit * unitsPerOne) unit = unitsPerOne := by
    rw [Nat.mul_comm, roundUnits_of_dvd unit_pos spacing_dvd_unitsPerOne]
  rw [exp_of_nonpos representable_zero (eqv_iff_le.mp h).2, argument_zero, growth_zero, ofRatio,
    hunit, hone]

/-- What bell curves ask of their exponential function. -/
structure IsExponential (exponential : Binary64 → Binary64) : Prop where
  mono : ∀ {x y}, x ≤ y → y ≤ 0 → exponential x ≤ exponential y
  eq_one : ∀ {x}, x.eqv 0 = true → exponential x = 1
  unit : ∀ {x}, x ≤ 0 → 0 ≤ exponential x ∧ exponential x ≤ 1

theorem isExponential_exp : IsExponential exp := ⟨exp_le_exp, exp_eq_one, exp_unit⟩

end FuzzyAlgebra.Binary64

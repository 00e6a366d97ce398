import FuzzyAlgebra.Proofs.Binary64.Resolution
import FuzzyAlgebra.Proofs.Operator.Threshold

/-!
# Numbers between zero and one

A real number is told to be in range by what is left of it after rounding. Rounding keeps every
number on its side of zero and of one, so a number in range stays there. The converse fails only for
fractions: a whole number out of range is at least one away from it, and a floating-point number is
not rounded at all, but a fraction can lie so close to the range that it is rounded onto its end.
-/

namespace FuzzyAlgebra

open Binary64

/-! ### Quotients -/

namespace Binary64

variable {num : Int} {den : Nat}

theorem rank_ofQuotient (num : Int) (den : Nat) :
    (ofQuotient num den).rank =
      some (signed (num < 0) (min (roundUnits (num.natAbs * unitsPerOne) den) limit)) :=
  rank_ofRatio _ _ _

theorem rank_ofQuotient_of_nonneg (hnum : 0 ≤ num) :
    (ofQuotient num den).rank =
      some ((min (roundUnits (num.natAbs * unitsPerOne) den) limit : Nat) : Int) := by
  rw [rank_ofQuotient, decide_eq_false (Int.not_lt.mpr hnum), signed_false]

theorem zero_le_ofQuotient (hnum : 0 ≤ num) : 0 ≤ ofQuotient num den :=
  (le_iff_of_rank rank_zero (rank_ofQuotient_of_nonneg hnum)).mpr (Int.natCast_nonneg _)

theorem ofQuotient_le_zero (hnum : num < 0) : ofQuotient num den ≤ 0 := by
  rw [le_iff_of_rank (rank_ofQuotient num den) rank_zero, decide_eq_true hnum, signed_true]
  exact Int.neg_nonpos_of_nonneg (Int.natCast_nonneg _)

theorem ofQuotient_le_one (hden : 0 < den) (hnum : 0 ≤ num) (hle : num ≤ den) :
    ofQuotient num den ≤ 1 := by
  have hunits : num.natAbs * unitsPerOne ≤ unitsPerOne * den := by
    rw [Nat.mul_comm]
    exact Nat.mul_le_mul_left _ (by omega)
  rw [le_iff_of_rank (rank_ofQuotient_of_nonneg hnum) rank_one]
  exact Int.ofNat_le.mpr ((Nat.min_le_left _ _).trans (roundUnits_le_unitsPerOne hden hunits))

theorem le_roundUnits_of_mul_le {units n : Nat} (hden : 0 < den) (hdvd : spacing units ∣ units)
    (hle : units * den ≤ n) : units ≤ roundUnits n den :=
  calc units = roundUnits (units * den) den := (roundUnits_of_dvd hden hdvd).symm
    _ ≤ roundUnits n den := roundUnits_mono den hle

theorem one_le_ofQuotient (hden : 0 < den) (hle : (den : Int) ≤ num) : 1 ≤ ofQuotient num den := by
  have hnum : 0 ≤ num := (Int.natCast_nonneg den).trans hle
  have hunits : unitsPerOne * den ≤ num.natAbs * unitsPerOne := by
    rw [Nat.mul_comm]
    exact Nat.mul_le_mul_right _ (by omega)
  rw [le_iff_of_rank rank_one (rank_ofQuotient_of_nonneg hnum), Int.ofNat_le]
  exact Nat.le_min.mpr
    ⟨le_roundUnits_of_mul_le hden spacing_dvd_unitsPerOne hunits, unitsPerOne_le_limit⟩

/-- Whole numbers out of range are at least one away from it, and stay apart from it. -/
theorem ofInt_lt_zero {n : Int} (h : n < 0) : ofInt n < 0 := by
  have hunits : unitsPerOne * 1 ≤ n.natAbs * unitsPerOne := by
    rw [Nat.mul_comm]
    exact Nat.mul_le_mul_right _ (by omega)
  have hround := le_roundUnits_of_mul_le Nat.one_pos spacing_dvd_unitsPerOne hunits
  rw [ofInt, lt_iff_of_rank (rank_ofQuotient n 1) rank_zero, decide_eq_true h, signed_true]
  have hpos : 0 < min (roundUnits (n.natAbs * unitsPerOne) 1) limit :=
    Nat.lt_min.mpr ⟨unitsPerOne_pos.trans_le hround, limit_pos⟩
  omega

theorem one_lt_ofInt {n : Int} (h : 1 < n) : 1 < ofInt n := by
  have hnum : 0 ≤ n := by omega
  have hunits : unitsPerOne * 2 ^ 1 * 1 ≤ n.natAbs * unitsPerOne := by
    rw [Nat.mul_one, Nat.mul_comm]
    exact Nat.mul_le_mul_right _ (by omega)
  have hround := le_roundUnits_of_mul_le Nat.one_pos
    (spacing_mul_two_pow_dvd spacing_dvd_unitsPerOne 1) hunits
  have hdouble : unitsPerOne < unitsPerOne * 2 ^ 1 := by
    have hpos := unitsPerOne_pos
    omega
  rw [ofInt, lt_iff_of_rank rank_one (rank_ofQuotient_of_nonneg hnum), Int.ofNat_lt]
  exact Nat.lt_min.mpr ⟨hdouble.trans_le hround, unitsPerOne_lt_limit⟩

end Binary64

/-! ### Real numbers -/

/-- The quantity lies between zero and one, both included. -/
def Quantity.InUnit : Quantity → Prop
  | .ratio num den => 0 < den ∧ 0 ≤ num ∧ num ≤ den
  | _ => False

theorem Quantity.inUnit_ofBinary64_iff {x : Binary64} :
    (ofBinary64 x).InUnit ↔ 0 ≤ x ∧ x ≤ 1 := by
  cases x with
  | nan => simp only [ofBinary64, InUnit]; decide
  | infinite s => simp only [ofBinary64, InUnit]; cases s <;> decide +kernel
  | finite s n hn =>
    rw [le_iff_of_rank rank_zero rfl, le_iff_of_rank rfl rank_one]
    exact and_iff_right unitsPerOne_pos

theorem Degree.exists_number_eq {x : Binary64} (hzero : 0 ≤ x) (hone : x ≤ 1) :
    ∃ d : Degree, d.number = x := ⟨⟨x, hzero, hone⟩, rfl⟩

namespace Value

variable {v : Value} {d : Degree}

/-- The number is in range, exactly and before it is rounded. -/
def InUnit (v : Value) : Prop := ∃ q, v.quantity? = some q ∧ q.InUnit

theorem inUnit_iff {q : Quantity} (h : v.quantity? = some q) : v.InUnit ↔ q.InUnit := by
  simp [InUnit, h]

/-- The number is a fraction out of range that is rounded onto the nearer end of it. -/
def RoundsOntoEnd (v : Value) (d : Degree) : Prop :=
  ∃ num den, v = .fraction num den ∧
    (0 < den → (num < 0 ∧ d.number.eqv 0 = true) ∨ (den < num ∧ d.number.eqv 1 = true))

theorem bounded_of_isFinite {x : Binary64} (h : x.isFinite = true) : bounded x = .ok x := by
  rw [bounded, if_pos h]

theorem exists_bounded_ofQuotient {num : Int} {den : Nat} (h : (Quantity.ratio num den).InUnit) :
    ∃ d : Degree, bounded (ofQuotient num den) = .ok d.number := by
  obtain ⟨hden, hnum, hle⟩ := h
  have hone := ofQuotient_le_one hden hnum hle
  obtain ⟨d, hd⟩ := Degree.exists_number_eq (zero_le_ofQuotient hnum) hone
  refine ⟨d, ?_⟩
  rw [← hd]
  exact bounded_of_isFinite (isFinite_of_unit d.nonneg d.le_one)

theorem eq_of_bounded {x y : Binary64} (h : bounded x = .ok y) : x = y := by
  unfold bounded at h
  split at h
  · exact Except.ok.inj h
  · cases h

theorem inUnit_ofTruth (b : Bool) : (Quantity.ratio (Numeral.ofTruth b) 1).InUnit := by
  cases b <;> exact ⟨Nat.one_pos, by decide, by decide⟩

/-- A whole number that is rounded to a degree is in range. -/
theorem inUnit_of_ofInt {n : Int} (h : ofInt n = d.number) : (Quantity.ratio n 1).InUnit := by
  refine ⟨Nat.one_pos, ?_, ?_⟩
  · apply Int.not_lt.mp
    intro hneg
    exact not_le_of_lt (ofInt_lt_zero hneg) (h ▸ d.nonneg)
  · apply Int.not_lt.mp
    intro hlarge
    exact not_le_of_lt (one_lt_ofInt hlarge) (h ▸ d.le_one)

/-- A number in range is rounded to a degree. -/
theorem exists_degree_of_inUnit (hreal : v.isReal = true) (h : v.InUnit) :
    ∃ d : Degree, v.toBinary64 = .ok d.number := by
  have hnumber {x : Binary64} (hx : (Quantity.ofBinary64 x).InUnit) :
      ∃ d : Degree, (.ok x : Except Mishap Binary64) = .ok d.number := by
    obtain ⟨hzero, hone⟩ := Quantity.inUnit_ofBinary64_iff.mp hx
    exact ⟨⟨x, hzero, hone⟩, rfl⟩
  have hwhole {n : Int} (hn : (Quantity.ratio n 1).InUnit) :
      ∃ d : Degree, (.ok (ofInt n) : Except Mishap Binary64) = .ok d.number := by
    obtain ⟨d, hd⟩ := exists_bounded_ofQuotient hn
    exact ⟨d, congrArg Except.ok (eq_of_bounded hd)⟩
  cases v with
  | bool b =>
    cases b with
    | false => exact ⟨⟨0, Binary64.zero_le_zero, Binary64.zero_le_one⟩, rfl⟩
    | true => exact ⟨⟨1, Binary64.zero_le_one, Binary64.one_le_one⟩, rfl⟩
  | int n => exact exists_bounded_ofQuotient ((inUnit_iff rfl).mp h)
  | float x => exact hnumber ((inUnit_iff rfl).mp h)
  | degree d => exact ⟨d, rfl⟩
  | fraction num den => exact exists_bounded_ofQuotient ((inUnit_iff rfl).mp h)
  | scalar s =>
    cases s with
    | bool b => cases hreal
    | float64 x => exact hnumber ((inUnit_iff rfl).mp h)
    | float32 x => exact hnumber ((inUnit_iff rfl).mp h)
    | int64 n => exact hwhole ((inUnit_iff rfl).mp h)
    | uint64 n => exact hwhole ((inUnit_iff rfl).mp h)
  | _ => cases hreal

/-- A number out of range that is rounded to a degree is a fraction near one end of the range. -/
theorem roundsOntoEnd_of_not_inUnit (hreal : v.isReal = true) (h : ¬ v.InUnit)
    (hd : v.toBinary64 = .ok d.number) : v.RoundsOntoEnd d := by
  have hnumber : ∀ x, (Except.ok x : Except Mishap Binary64) = .ok d.number →
      (Quantity.ofBinary64 x).InUnit := by
    rintro x hx
    obtain rfl := Except.ok.inj hx
    exact Quantity.inUnit_ofBinary64_iff.mpr ⟨d.nonneg, d.le_one⟩
  cases v with
  | bool b => exact absurd ⟨_, rfl, inUnit_ofTruth b⟩ h
  | int n => exact absurd ⟨_, rfl, inUnit_of_ofInt (eq_of_bounded hd)⟩ h
  | float x => exact absurd ⟨_, rfl, hnumber x hd⟩ h
  | degree e => exact absurd ⟨_, rfl, hnumber e.number hd⟩ h
  | fraction num den =>
    have hquotient := eq_of_bounded hd
    refine ⟨num, den, rfl, fun hden => ?_⟩
    rw [inUnit_iff rfl] at h
    by_cases hneg : num < 0
    · refine .inl ⟨hneg, eqv_iff_le.mpr ⟨d.nonneg, ?_⟩⟩
      rw [← hquotient]
      exact ofQuotient_le_zero hneg
    · have hlarge : (den : Int) < num := by
        apply Int.not_le.mp
        intro hle
        exact h ⟨hden, Int.not_lt.mp hneg, hle⟩
      refine .inr ⟨hlarge, eqv_iff_le.mpr ⟨?_, d.le_one⟩⟩
      rw [← hquotient]
      exact one_le_ofQuotient hden hlarge.le
  | scalar s =>
    cases s with
    | bool b => cases hreal
    | float64 x => exact absurd ⟨_, rfl, hnumber x hd⟩ h
    | float32 x => exact absurd ⟨_, rfl, hnumber x hd⟩ h
    | int64 n => exact absurd ⟨_, rfl, inUnit_of_ofInt (Except.ok.inj hd)⟩ h
    | uint64 n => exact absurd ⟨_, rfl, inUnit_of_ofInt (Except.ok.inj hd)⟩ h
  | _ => cases hreal

end Value

end FuzzyAlgebra

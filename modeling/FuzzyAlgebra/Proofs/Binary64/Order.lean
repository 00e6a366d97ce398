import FuzzyAlgebra.Binary64.Basic

/-!
# Comparing numbers, and where NaN comes from

Numbers other than NaN are ordered by their ranks, which are integers, so comparisons among them are
total. An operation on finite numbers never gives NaN: the rounded magnitude is finite or infinite.
-/

namespace FuzzyAlgebra.Binary64

variable {x y z : Binary64} {a b : Int}

theorem exists_rank (h : x.isNaN = false) : ∃ a, x.rank = some a := by
  cases x with
  | nan => cases h
  | infinite negative => exact ⟨_, rfl⟩
  | finite negative units hunits => exact ⟨_, rfl⟩

theorem le_iff_of_rank (hx : x.rank = some a) (hy : y.rank = some b) : x ≤ y ↔ a ≤ b := by
  change compareBy _ x y = true ↔ _
  simp [compareBy, hx, hy]

theorem lt_iff_of_rank (hx : x.rank = some a) (hy : y.rank = some b) : x < y ↔ a < b := by
  change compareBy _ x y = true ↔ _
  simp [compareBy, hx, hy]

theorem eqv_iff_of_rank (hx : x.rank = some a) (hy : y.rank = some b) :
    x.eqv y = true ↔ a = b := by
  simp [eqv, compareBy, hx, hy]

/-! ### Comparisons that hold -/

theorem exists_ranks {test : Int → Int → Bool} (h : compareBy test x y = true) :
    ∃ a b, x.rank = some a ∧ y.rank = some b ∧ test a b = true := by
  unfold compareBy at h
  split at h
  · rename_i a b ha hb
    exact ⟨a, b, ha, hb, h⟩
  · cases h

theorem exists_rank_of_le (h : x ≤ y) : ∃ a b, x.rank = some a ∧ y.rank = some b ∧ a ≤ b := by
  obtain ⟨a, b, ha, hb, -⟩ := exists_ranks h
  exact ⟨a, b, ha, hb, (le_iff_of_rank ha hb).mp h⟩

theorem exists_rank_of_lt (h : x < y) : ∃ a b, x.rank = some a ∧ y.rank = some b ∧ a < b := by
  obtain ⟨a, b, ha, hb, -⟩ := exists_ranks h
  exact ⟨a, b, ha, hb, (lt_iff_of_rank ha hb).mp h⟩

theorem eq_nan_of_isNaN (h : x.isNaN = true) : x = nan := by
  cases x with
  | nan => rfl
  | infinite s => cases h
  | finite s n hn => cases h

theorem isNaN_of_rank (h : x.rank = some a) : x.isNaN = false := by
  cases x with
  | nan => cases h
  | infinite negative => rfl
  | finite negative units hunits => rfl

theorem isNaN_left_of_le (h : x ≤ y) : x.isNaN = false := by
  obtain ⟨a, -, ha, -⟩ := exists_rank_of_le h
  exact isNaN_of_rank ha

theorem isNaN_right_of_le (h : x ≤ y) : y.isNaN = false := by
  obtain ⟨-, b, -, hb, -⟩ := exists_rank_of_le h
  exact isNaN_of_rank hb

theorem isNaN_left_of_lt (h : x < y) : x.isNaN = false := by
  obtain ⟨a, -, ha, -⟩ := exists_rank_of_lt h
  exact isNaN_of_rank ha

theorem isNaN_right_of_lt (h : x < y) : y.isNaN = false := by
  obtain ⟨-, b, -, hb, -⟩ := exists_rank_of_lt h
  exact isNaN_of_rank hb

theorem le_refl (h : x.isNaN = false) : x ≤ x := by
  obtain ⟨a, ha⟩ := exists_rank h
  exact (le_iff_of_rank ha ha).mpr (Int.le_refl a)

theorem le_of_lt (h : x < y) : x ≤ y := by
  obtain ⟨a, b, ha, hb, hlt⟩ := exists_rank_of_lt h
  exact (le_iff_of_rank ha hb).mpr (Int.le_of_lt hlt)

theorem le_trans (hxy : x ≤ y) (hyz : y ≤ z) : x ≤ z := by
  obtain ⟨a, b, ha, hb, hab⟩ := exists_rank_of_le hxy
  obtain ⟨b', c, hb', hc, hbc⟩ := exists_rank_of_le hyz
  cases hb.symm.trans hb'
  exact (le_iff_of_rank ha hc).mpr (Int.le_trans hab hbc)

theorem lt_of_lt_of_le (hxy : x < y) (hyz : y ≤ z) : x < z := by
  obtain ⟨a, b, ha, hb, hab⟩ := exists_rank_of_lt hxy
  obtain ⟨b', c, hb', hc, hbc⟩ := exists_rank_of_le hyz
  cases hb.symm.trans hb'
  exact (lt_iff_of_rank ha hc).mpr (Int.lt_of_lt_of_le hab hbc)

theorem lt_of_le_of_lt (hxy : x ≤ y) (hyz : y < z) : x < z := by
  obtain ⟨a, b, ha, hb, hab⟩ := exists_rank_of_le hxy
  obtain ⟨b', c, hb', hc, hbc⟩ := exists_rank_of_lt hyz
  cases hb.symm.trans hb'
  exact (lt_iff_of_rank ha hc).mpr (Int.lt_of_le_of_lt hab hbc)

theorem not_lt_of_le (h : x ≤ y) : ¬ y < x := by
  obtain ⟨a, b, ha, hb, hle⟩ := exists_rank_of_le h
  rw [lt_iff_of_rank hb ha]
  exact Int.not_lt.mpr hle

theorem not_le_of_lt (h : x < y) : ¬ y ≤ x := by
  obtain ⟨a, b, ha, hb, hlt⟩ := exists_rank_of_lt h
  rw [le_iff_of_rank hb ha]
  exact Int.not_le.mpr hlt

theorem not_eqv_of_lt (h : x < y) : ¬ x.eqv y = true := by
  obtain ⟨a, b, ha, hb, hlt⟩ := exists_rank_of_lt h
  rw [eqv_iff_of_rank ha hb]
  exact Int.ne_of_lt hlt

theorem eqv_comm (x y : Binary64) : x.eqv y = y.eqv x := by
  unfold eqv compareBy
  cases x.rank <;> cases y.rank <;> simp [eq_comm]

/-- Two numbers are equal where each is at most the other. -/
theorem eqv_iff_le : x.eqv y = true ↔ y ≤ x ∧ x ≤ y := by
  change compareBy _ x y = true ↔ compareBy _ y x = true ∧ compareBy _ x y = true
  unfold compareBy
  cases x.rank with
  | none => cases y.rank <;> simp
  | some a =>
    cases y.rank with
    | none => simp
    | some b => simp only [decide_eq_true_eq]; omega

theorem le_of_not_lt (hx : x.isNaN = false) (hy : y.isNaN = false) (h : ¬ x < y) : y ≤ x := by
  obtain ⟨a, ha⟩ := exists_rank hx
  obtain ⟨b, hb⟩ := exists_rank hy
  exact (le_iff_of_rank hb ha).mpr (Int.not_lt.mp fun hlt => h ((lt_iff_of_rank ha hb).mpr hlt))

theorem lt_of_not_le (hx : x.isNaN = false) (hy : y.isNaN = false) (h : ¬ x ≤ y) : y < x := by
  obtain ⟨a, ha⟩ := exists_rank hx
  obtain ⟨b, hb⟩ := exists_rank hy
  rw [le_iff_of_rank ha hb] at h
  exact (lt_iff_of_rank hb ha).mpr (Int.not_le.mp h)

/-! ### Greatest and least numbers -/

theorem rank_max (hx : x.rank = some a) (hy : y.rank = some b) :
    (Binary64.max x y).rank = some (max a b) := by
  unfold Binary64.max
  split
  · rename_i hlt
    rw [hy, Int.max_eq_right (Int.le_of_lt ((lt_iff_of_rank hx hy).mp hlt))]
  · rename_i hge
    rw [hx, Int.max_eq_left (Int.not_lt.mp fun hlt => hge ((lt_iff_of_rank hx hy).mpr hlt))]

theorem rank_min (hx : x.rank = some a) (hy : y.rank = some b) :
    (Binary64.min x y).rank = some (min a b) := by
  unfold Binary64.min
  split
  · rename_i hlt
    rw [hy, Int.min_eq_right (Int.le_of_lt ((lt_iff_of_rank hy hx).mp hlt))]
  · rename_i hge
    rw [hx, Int.min_eq_left (Int.not_lt.mp fun hlt => hge ((lt_iff_of_rank hy hx).mpr hlt))]

/-! ### Magnitudes with a sign -/

@[simp] theorem signed_false (units : Nat) : signed false units = units := rfl

@[simp] theorem signed_true (units : Nat) : signed true units = -(units : Int) := rfl

theorem natAbs_signed (negative : Bool) (units : Nat) : (signed negative units).natAbs = units := by
  cases negative
  · exact Int.natAbs_natCast units
  · exact (Int.natAbs_neg _).trans (Int.natAbs_natCast units)

/-- Of two numbers that are not positive, the smaller has the greater magnitude. -/
theorem le_of_signed_le_signed {s t : Bool} {m n : Nat} (h : signed s m ≤ signed t n)
    (hzero : signed t n ≤ 0) : n ≤ m := by
  rw [← natAbs_signed s m, ← natAbs_signed t n]
  omega

/-! ### Zero and one -/

theorem rank_zero : (0 : Binary64).rank = some 0 := rfl

theorem eqv_zero_iff : x.eqv 0 = true ↔ x.rank = some 0 := by
  unfold eqv compareBy
  rw [rank_zero]
  cases x.rank <;> simp

theorem rank_one : (1 : Binary64).rank = some (unitsPerOne : Int) := by decide +kernel

theorem isNaN_zero : (0 : Binary64).isNaN = false := rfl

theorem isNaN_one : (1 : Binary64).isNaN = false := isNaN_of_rank rank_one

theorem zero_le_zero : (0 : Binary64) ≤ 0 := le_refl rfl

theorem zero_le_one : (0 : Binary64) ≤ 1 :=
  (le_iff_of_rank rank_zero rank_one).mpr (Int.natCast_nonneg _)

theorem one_le_one : (1 : Binary64) ≤ 1 := le_refl isNaN_one

theorem zero_le_negativeZero : (0 : Binary64) ≤ negativeZero :=
  (le_iff_of_rank rank_zero rfl).mpr (Int.le_refl 0)

theorem negativeZero_le_one : negativeZero ≤ 1 :=
  (le_iff_of_rank rfl rank_one).mpr (Int.natCast_nonneg _)

/-! ### Finite numbers -/

theorem isNaN_of_isFinite (h : x.isFinite = true) : x.isNaN = false := by
  cases x with
  | nan => cases h
  | infinite negative => cases h
  | finite negative units hunits => rfl

theorem isFinite_iff_of_rank (h : x.rank = some a) : x.isFinite = true ↔ a.natAbs < limit := by
  cases x with
  | nan => cases h
  | infinite negative =>
    cases h
    simp [isFinite, natAbs_signed]
  | finite negative units hunits =>
    cases h
    simp [isFinite, natAbs_signed, hunits.1]

theorem isFinite_of_le (hx : 0 ≤ x) (hxy : x ≤ y) (hy : y.isFinite = true) : x.isFinite = true := by
  obtain ⟨a, b, ha, hb, hab⟩ := exists_rank_of_le hxy
  rw [le_iff_of_rank rank_zero ha] at hx
  rw [isFinite_iff_of_rank hb] at hy
  rw [isFinite_iff_of_rank ha]
  omega

theorem unitsPerOne_lt_limit : unitsPerOne < limit := by
  have hmono {m n : Nat} (h : m < n) : (2 : Nat) ^ m < 2 ^ n :=
    Nat.pow_lt_pow_right Nat.one_lt_two h
  exact hmono (by omega : 1074 < 2098)

theorem isFinite_zero : (0 : Binary64).isFinite = true := rfl

theorem isFinite_one : (1 : Binary64).isFinite = true := by
  rw [isFinite_iff_of_rank rank_one, Int.natAbs_natCast]
  exact unitsPerOne_lt_limit

theorem isFinite_of_unit (hnonneg : 0 ≤ x) (hle : x ≤ 1) : x.isFinite = true :=
  isFinite_of_le hnonneg hle isFinite_one

theorem isFinite_neg (h : x.isFinite = true) : (-x).isFinite = true := by
  cases x with
  | nan => cases h
  | infinite negative => cases h
  | finite negative units hunits => rfl

theorem isNaN_ofRatio (negative : Bool) (num den : Nat) :
    (ofRatio negative num den).isNaN = false := by
  unfold ofRatio ofUnits
  split <;> rfl

theorem isNaN_add (hx : x.isFinite = true) (hy : y.isFinite = true) : (x + y).isNaN = false := by
  cases x with
  | nan => cases hx
  | infinite negative => cases hx
  | finite s m hm =>
    cases y with
    | nan => cases hy
    | infinite negative => cases hy
    | finite t n hn =>
      change (Binary64.add _ _).isNaN = false
      simp only [Binary64.add]
      split
      · rfl
      · exact isNaN_ofRatio _ _ _

theorem isNaN_sub (hx : x.isFinite = true) (hy : y.isFinite = true) : (x - y).isNaN = false :=
  isNaN_add hx (isFinite_neg hy)

theorem isNaN_mul (hx : x.isFinite = true) (hy : y.isFinite = true) : (x * y).isNaN = false := by
  cases x with
  | nan => cases hx
  | infinite negative => cases hx
  | finite s m hm =>
    cases y with
    | nan => cases hy
    | infinite negative => cases hy
    | finite t n hn =>
      change (Binary64.mul _ _).isNaN = false
      simp only [Binary64.mul]
      exact isNaN_ofRatio _ _ _

/-- A maximum is NaN if and only if its first operand is. -/
theorem isNaN_max (x y : Binary64) : (Binary64.max x y).isNaN = x.isNaN := by
  unfold Binary64.max
  split
  · rename_i hlt
    rw [isNaN_left_of_lt hlt, isNaN_right_of_lt hlt]
  · rfl

theorem isNaN_min (x y : Binary64) : (Binary64.min x y).isNaN = x.isNaN := by
  unfold Binary64.min
  split
  · rename_i hlt
    rw [isNaN_left_of_lt hlt, isNaN_right_of_lt hlt]
  · rfl

end FuzzyAlgebra.Binary64

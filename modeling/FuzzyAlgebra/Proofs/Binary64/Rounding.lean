import FuzzyAlgebra.Proofs.Binary64.Order
import Mathlib.Data.Nat.Log
import Mathlib.Tactic.Ring

/-!
# Rounding

Rounding never reverses the order of two quotients over one divisor, and a representable magnitude
is its own rounding. The spacing doubles from one power of two to the next, so two quotients with
different spacings have a power of two between them, which both roundings respect. The rank of a
sum, a difference or a product is the rounded sum, difference or product of the ranks.
-/

namespace FuzzyAlgebra.Binary64

variable {num num' den units : Nat} {x y : Binary64} {a b : Int}

/-! ### The nearest whole number -/

theorem div_le_nearestEven (num den : Nat) : num / den ≤ nearestEven num den := by
  simp only [nearestEven]
  split_ifs <;> omega

theorem nearestEven_le (num den : Nat) : nearestEven num den ≤ num / den + 1 := by
  simp only [nearestEven]
  split_ifs <;> omega

theorem nearestEven_mono (den : Nat) (h : num ≤ num') :
    nearestEven num den ≤ nearestEven num' den := by
  rcases Nat.lt_or_eq_of_le (Nat.div_le_div_right (c := den) h) with hlt | heq
  · calc nearestEven num den ≤ num / den + 1 := nearestEven_le num den
      _ ≤ num' / den := hlt
      _ ≤ nearestEven num' den := div_le_nearestEven num' den
  · -- in one interval between whole numbers the remainders decide
    have hnum := Nat.div_add_mod num den
    have hnum' := Nat.div_add_mod num' den
    rw [← heq] at hnum'
    have hmod : num % den ≤ num' % den := by omega
    simp only [nearestEven]
    rw [← heq]
    split_ifs <;> omega

theorem nearestEven_mul_self (hden : 0 < den) (n : Nat) : nearestEven (n * den) den = n := by
  simp only [nearestEven]
  rw [Nat.mul_div_cancel n hden, Nat.mul_mod_left, if_pos hden]

theorem nearestEven_mul_right {k : Nat} (hk : 0 < k) (num den : Nat) :
    nearestEven (num * k) (den * k) = nearestEven num den := by
  have hlt {m n : Nat} : 2 * (m * k) < n * k ↔ 2 * m < n := by
    rw [← Nat.mul_assoc, Nat.mul_lt_mul_right hk]
  have hlt' {m n : Nat} : n * k < 2 * (m * k) ↔ n < 2 * m := by
    rw [← Nat.mul_assoc, Nat.mul_lt_mul_right hk]
  simp only [nearestEven, Nat.mul_div_mul_right num den hk, Nat.mul_mod_mul_right, hlt, hlt']

/-! ### Spacings -/

theorem spacing_pos (units : Nat) : 0 < spacing units := Nat.two_pow_pos _

theorem spacing_dvd_spacing {m n : Nat} (h : m ≤ n) : spacing m ∣ spacing n := by
  have hlog : m.log2 ≤ n.log2 := by
    rw [Nat.log2_eq_log_two, Nat.log2_eq_log_two]
    exact Nat.log_mono_right h
  exact pow_dvd_pow 2 (Nat.sub_le_sub_right hlog 52)

theorem spacing_two_pow (e : Nat) : spacing (2 ^ e) = 2 ^ (e - 52) := by
  rw [spacing, Nat.log2_two_pow]

theorem spacing_dvd_two_pow {e : Nat} (h : units ≤ 2 ^ e) : spacing units ∣ 2 ^ e := by
  refine (spacing_dvd_spacing h).trans ?_
  rw [spacing_two_pow]
  exact pow_dvd_pow 2 (Nat.sub_le e 52)

/-! ### Rounding to a multiple of the spacing -/

theorem roundUnits_eq (num den : Nat) :
    roundUnits num den =
      nearestEven num (den * spacing (num / den)) * spacing (num / den) := rfl

/-- Rounding stays above every multiple of the spacing that the quotient has reached. -/
theorem le_roundUnits (hdvd : spacing (num / den) ∣ units) (h : units ≤ num / den) :
    units ≤ roundUnits num den := by
  obtain ⟨k, rfl⟩ := hdvd
  have hk : k ≤ num / (den * spacing (num / den)) := by
    rw [← Nat.div_div_eq_div_mul, Nat.le_div_iff_mul_le (spacing_pos _), Nat.mul_comm]
    exact h
  rw [roundUnits_eq, Nat.mul_comm]
  exact Nat.mul_le_mul_right _ (hk.trans (div_le_nearestEven _ _))

/-- Rounding does not pass a multiple of the spacing above the quotient. -/
theorem roundUnits_le (hdvd : spacing (num / den) ∣ units) (h : num / den < units) :
    roundUnits num den ≤ units := by
  obtain ⟨k, rfl⟩ := hdvd
  have hk : num / (den * spacing (num / den)) < k := by
    rw [← Nat.div_div_eq_div_mul, Nat.div_lt_iff_lt_mul (spacing_pos _), Nat.mul_comm]
    exact h
  rw [roundUnits_eq, Nat.mul_comm]
  exact Nat.mul_le_mul_left _ ((nearestEven_le _ _).trans hk)

theorem spacing_dvd_roundUnits_self (num den : Nat) :
    spacing (num / den) ∣ roundUnits num den := by
  rw [roundUnits_eq]
  exact Nat.dvd_mul_left _ _

/-- What rounding gives is a multiple of the spacing around itself, also where it reached the next
power of two. -/
theorem spacing_dvd_roundUnits (num den : Nat) :
    spacing (roundUnits num den) ∣ roundUnits num den := by
  have hlt : num / den < 2 ^ ((num / den).log2 + 1) := Nat.lt_log2_self
  have hle := roundUnits_le (spacing_dvd_two_pow hlt.le) hlt
  rcases Nat.lt_or_eq_of_le hle with hbelow | heq
  · by_cases hzero : roundUnits num den = 0
    · rw [hzero]
      exact Nat.dvd_zero _
    · have hlog : (roundUnits num den).log2 ≤ (num / den).log2 :=
        Nat.le_of_lt_succ ((Nat.log2_lt hzero).mpr hbelow)
      have hspacing : spacing (roundUnits num den) ∣ spacing (num / den) :=
        pow_dvd_pow 2 (Nat.sub_le_sub_right hlog 52)
      exact hspacing.trans (spacing_dvd_roundUnits_self num den)
  · rw [heq]
    exact spacing_dvd_two_pow le_rfl

theorem roundUnits_mono (den : Nat) (h : num ≤ num') :
    roundUnits num den ≤ roundUnits num' den := by
  have hquotient : num / den ≤ num' / den := Nat.div_le_div_right h
  by_cases hspacing : spacing (num / den) = spacing (num' / den)
  · rw [roundUnits_eq, roundUnits_eq, hspacing]
    exact Nat.mul_le_mul_right _ (nearestEven_mono _ h)
  · -- the greatest power of two up to the second quotient lies above the first
    have hlog : (num / den).log2 < (num' / den).log2 := by
      by_contra hge
      have hlog' : (num / den).log2 ≤ (num' / den).log2 := by
        rw [Nat.log2_eq_log_two, Nat.log2_eq_log_two]
        exact Nat.log_mono_right hquotient
      exact hspacing (by rw [spacing, spacing, Nat.le_antisymm hlog' (Nat.not_lt.mp hge)])
    have hlt : num / den < 2 ^ (num' / den).log2 := by
      by_cases hzero : num / den = 0
      · rw [hzero]
        exact Nat.two_pow_pos _
      · exact (Nat.log2_lt hzero).mp hlog
    have hne : num' / den ≠ 0 := by
      intro hzero
      rw [hzero] at hlog
      exact absurd hlog (by simp)
    have hpow : spacing (num' / den) ∣ 2 ^ (num' / den).log2 :=
      pow_dvd_pow 2 (Nat.sub_le _ 52)
    calc roundUnits num den ≤ 2 ^ (num' / den).log2 :=
          roundUnits_le (spacing_dvd_two_pow hlt.le) hlt
      _ ≤ roundUnits num' den := le_roundUnits hpow (Nat.log2_self_le hne)

theorem roundUnits_mul_right {k : Nat} (hk : 0 < k) (num den : Nat) :
    roundUnits (num * k) (den * k) = roundUnits num den := by
  rw [roundUnits_eq, roundUnits_eq, Nat.mul_div_mul_right num den hk, Nat.mul_right_comm,
    nearestEven_mul_right hk]

theorem roundUnits_anti {den' : Nat} (num : Nat) (hden : 0 < den) (h : den ≤ den') :
    roundUnits num den' ≤ roundUnits num den := by
  calc roundUnits num den' = roundUnits (num * den) (den' * den) :=
        (roundUnits_mul_right hden num den').symm
    _ ≤ roundUnits (num * den') (den' * den) := roundUnits_mono _ (Nat.mul_le_mul_left num h)
    _ = roundUnits (num * den') (den * den') := by rw [Nat.mul_comm den']
    _ = roundUnits num den := roundUnits_mul_right (hden.trans_le h) num den

theorem roundUnits_of_dvd (hden : 0 < den) (h : spacing units ∣ units) :
    roundUnits (units * den) den = units := by
  obtain ⟨k, hk⟩ := h
  rw [roundUnits_eq, Nat.mul_div_cancel units hden]
  have hnum : units * den = k * (den * spacing units) := by
    calc units * den = spacing units * k * den := by rw [← hk]
      _ = k * (den * spacing units) := by ring
  rw [hnum, nearestEven_mul_self (Nat.mul_pos hden (spacing_pos units)), Nat.mul_comm, ← hk]

theorem roundUnits_one_of_dvd (h : spacing units ∣ units) : roundUnits units 1 = units := by
  have hself := roundUnits_of_dvd Nat.one_pos h
  rwa [Nat.mul_one] at hself

theorem roundUnits_zero (hden : 0 < den) : roundUnits 0 den = 0 := by
  have hself := roundUnits_of_dvd hden (Nat.dvd_zero (spacing 0))
  rwa [Nat.zero_mul] at hself

theorem unitsPerOne_pos : 0 < unitsPerOne := by
  have hpos (n : Nat) : 0 < (2 : Nat) ^ n := Nat.two_pow_pos n
  exact hpos 1074

theorem spacing_dvd_unitsPerOne : spacing unitsPerOne ∣ unitsPerOne := spacing_dvd_two_pow le_rfl

theorem unitsPerOne_le_limit : unitsPerOne ≤ limit := unitsPerOne_lt_limit.le

theorem limit_pos : 0 < limit := unitsPerOne_pos.trans unitsPerOne_lt_limit

theorem roundUnits_le_unitsPerOne (hden : 0 < den) (h : num ≤ unitsPerOne * den) :
    roundUnits num den ≤ unitsPerOne :=
  (roundUnits_mono den h).trans_eq (roundUnits_of_dvd hden spacing_dvd_unitsPerOne)

/-! ### Ranks of results -/

theorem rank_ofRatio (negative : Bool) (num den : Nat) :
    (ofRatio negative num den).rank =
      some (signed negative (min (roundUnits num den) limit)) := by
  unfold ofRatio ofUnits
  by_cases hrep : Representable (roundUnits num den)
  · rw [dif_pos hrep, min_eq_left hrep.1.le]
    rfl
  · have hlimit : limit ≤ roundUnits num den := by
      by_contra hlt
      exact hrep ⟨Nat.not_le.mp hlt, spacing_dvd_roundUnits num den⟩
    rw [dif_neg hrep, min_eq_right hlimit]
    rfl

theorem signed_zero (negative : Bool) : signed negative 0 = 0 := by
  cases negative <;> rfl

theorem signed_not (negative : Bool) (units : Nat) :
    signed (!negative) units = -signed negative units := by
  cases negative
  · rfl
  · exact (Int.neg_neg _).symm

/-- The rank of the number nearest to so many units. -/
def roundedRank (units : Int) : Int :=
  signed (units < 0) (min (roundUnits units.natAbs 1) limit)

theorem rank_neg (hx : x.rank = some a) : (-x).rank = some (-a) := by
  cases x with
  | nan => cases hx
  | infinite negative =>
    cases hx
    exact congrArg some (signed_not negative limit)
  | finite negative units hunits =>
    cases hx
    exact congrArg some (signed_not negative units)

theorem rank_add (hxfin : x.isFinite = true) (hyfin : y.isFinite = true) (hx : x.rank = some a)
    (hy : y.rank = some b) : (x + y).rank = some (roundedRank (a + b)) := by
  cases x with
  | nan => cases hxfin
  | infinite negative => cases hxfin
  | finite s m hm =>
    cases y with
    | nan => cases hyfin
    | infinite negative => cases hyfin
    | finite t n hn =>
      cases hx
      cases hy
      change (Binary64.add _ _).rank = _
      simp only [Binary64.add]
      by_cases hzero : signed s m + signed t n = 0
      · rw [if_pos hzero, hzero, roundedRank, Int.natAbs_zero, roundUnits_zero Nat.one_pos,
          Nat.zero_min, signed_zero]
        exact congrArg some (signed_zero _)
      · rw [if_neg hzero, rank_ofRatio, roundedRank]

theorem rank_sub (hxfin : x.isFinite = true) (hyfin : y.isFinite = true) (hx : x.rank = some a)
    (hy : y.rank = some b) : (x - y).rank = some (roundedRank (a - b)) := by
  rw [Int.sub_eq_add_neg]
  exact rank_add hxfin (isFinite_neg hyfin) hx (rank_neg hy)

theorem eq_of_signed_eq {negative : Bool} {m n : Nat} (h : signed negative m = n) : m = n := by
  cases negative
  · exact Int.ofNat.inj h
  · change -(m : Int) = n at h
    omega

theorem eq_zero_of_signed_true {m n : Nat} (h : signed true m = n) : m = 0 := by
  change -(m : Int) = n at h
  omega

theorem rank_mul {m n : Nat} (hxfin : x.isFinite = true) (hyfin : y.isFinite = true)
    (hx : x.rank = some (m : Int)) (hy : y.rank = some (n : Int)) :
    (x * y).rank = some ((min (roundUnits (m * n) unitsPerOne) limit : Nat) : Int) := by
  cases x with
  | nan => cases hxfin
  | infinite negative => cases hxfin
  | finite s u hu =>
    cases y with
    | nan => cases hyfin
    | infinite negative => cases hyfin
    | finite t v hv =>
      have hum : signed s u = m := Option.some.inj hx
      have hvn : signed t v = n := Option.some.inj hy
      obtain rfl := eq_of_signed_eq hum
      obtain rfl := eq_of_signed_eq hvn
      change (Binary64.mul _ _).rank = _
      simp only [Binary64.mul]
      rw [rank_ofRatio]
      cases hsign : s != t with
      | false => rfl
      | true =>
        -- a negative factor is negative zero, so the product is zero
        have hproduct : u * v = 0 := by
          cases s with
          | true => rw [eq_zero_of_signed_true hum, Nat.zero_mul]
          | false =>
            cases t with
            | true => rw [eq_zero_of_signed_true hvn, Nat.mul_zero]
            | false => cases hsign
        rw [hproduct, roundUnits_zero unitsPerOne_pos, Nat.zero_min]
        rfl

end FuzzyAlgebra.Binary64

import FuzzyAlgebra.Proofs.Binary64.Rounding

/-!
# Differences, quotients and squares

A difference is the rounded difference of two places on a line on which the infinities lie far
outside. So differences grow with their first term and fall with their second, even where they
overflow. A quotient of a smaller number by a greater one lies between zero and one, unless both are
infinite. A negative multiple of a square is never positive.
-/

namespace FuzzyAlgebra.Binary64

variable {x y x' y' : Binary64} {a b : Int}

/-! ### Rounded ranks -/

theorem natAbs_rank_le (h : x.rank = some a) : a.natAbs ≤ limit := by
  cases x with
  | nan => cases h
  | infinite negative =>
    cases h
    exact (natAbs_signed negative limit).le
  | finite negative units hunits =>
    cases h
    exact (natAbs_signed negative units).trans_le hunits.1.le

theorem infinite_true_le (h : x.isNaN = false) : infinite true ≤ x := by
  obtain ⟨a, ha⟩ := exists_rank h
  have hmax := natAbs_rank_le ha
  rw [le_iff_of_rank rfl ha, signed_true]
  omega

theorem le_infinite_false (h : x.isNaN = false) : x ≤ infinite false := by
  obtain ⟨a, ha⟩ := exists_rank h
  have hmax := natAbs_rank_le ha
  rw [le_iff_of_rank ha rfl, signed_false]
  omega

theorem roundUnits_limit : roundUnits limit 1 = limit := by
  have hdvd : spacing limit ∣ limit := spacing_dvd_two_pow le_rfl
  exact roundUnits_one_of_dvd hdvd

theorem roundedRank_signed (negative : Bool) (n : Nat) :
    roundedRank (signed negative n) = signed negative (min (roundUnits n 1) limit) := by
  rw [roundedRank, natAbs_signed]
  cases negative with
  | false => rw [signed_false n, decide_eq_false (Int.not_lt.mpr (Int.natCast_nonneg n))]
  | true =>
    cases n with
    | zero => rw [roundUnits_zero Nat.one_pos, Nat.zero_min, signed_zero, signed_zero]
    | succ n =>
      rw [signed_true (n + 1), decide_eq_true (Int.neg_neg_of_pos (Int.natCast_succ_pos n))]

/-- Past the limit everything is rounded to an infinity. -/
theorem roundedRank_of_limit_le (negative : Bool) {n : Nat} (h : limit ≤ n) :
    roundedRank (signed negative n) = signed negative limit := by
  have hround : limit ≤ roundUnits n 1 := by
    calc limit = roundUnits limit 1 := roundUnits_limit.symm
      _ ≤ roundUnits n 1 := roundUnits_mono 1 h
  rw [roundedRank_signed, min_eq_right hround]

theorem roundedRank_nonneg (h : 0 ≤ a) : 0 ≤ roundedRank a := by
  obtain ⟨n, rfl⟩ := Int.eq_ofNat_of_zero_le h
  exact (Int.natCast_nonneg _).trans_eq (roundedRank_signed false n).symm

/-- A monotone map of magnitudes that keeps zero is monotone on magnitudes with a sign. -/
theorem signed_le_signed {g : Nat → Nat} (hg : Monotone g) (hzero : g 0 = 0) {s t : Bool}
    {m n : Nat} (h : signed s m ≤ signed t n) : signed s (g m) ≤ signed t (g n) := by
  cases s with
  | false =>
    cases t with
    | false => exact Int.ofNat_le.mpr (hg (Int.ofNat_le.mp h))
    | true =>
      -- what is not negative lies below what is not positive, so both are zero
      rw [signed_false, signed_true] at h
      obtain rfl : m = 0 := by omega
      obtain rfl : n = 0 := by omega
      rw [hzero, signed_zero, signed_zero]
  | true =>
    cases t with
    | false =>
      rw [signed_false, signed_true]
      omega
    | true =>
      rw [signed_true, signed_true] at h
      exact Int.neg_le_neg (Int.ofNat_le.mpr (hg (by omega)))

theorem exists_eq_signed (a : Int) : ∃ negative n, a = signed negative n := by
  obtain ⟨n, rfl | rfl⟩ := Int.eq_nat_or_neg a
  · exact ⟨false, n, rfl⟩
  · exact ⟨true, n, rfl⟩

theorem roundedRank_mono (h : a ≤ b) : roundedRank a ≤ roundedRank b := by
  obtain ⟨s, m, rfl⟩ := exists_eq_signed a
  obtain ⟨t, n, rfl⟩ := exists_eq_signed b
  have hmono : Monotone fun n => min (roundUnits n 1) limit :=
    fun m n hmn => min_le_min_right _ (roundUnits_mono 1 hmn)
  have hzero : min (roundUnits 0 1) limit = 0 := by
    rw [roundUnits_zero Nat.one_pos, Nat.zero_min]
  rw [roundedRank_signed, roundedRank_signed]
  exact signed_le_signed hmono hzero h

theorem roundedRank_pos (h : 0 < a) : 0 < roundedRank a := by
  have hdvd : spacing 1 ∣ 1 := spacing_dvd_two_pow (Nat.le_of_eq (Nat.pow_zero 2).symm)
  have hlimit : 1 ≤ limit := limit_pos
  have hone : roundedRank 1 = 1 := by
    calc roundedRank 1 = signed false (min (roundUnits 1 1) limit) := roundedRank_signed false 1
      _ = 1 := by rw [roundUnits_one_of_dvd hdvd, min_eq_left hlimit, signed_false, Int.natCast_one]
  have hle : roundedRank 1 ≤ roundedRank a := roundedRank_mono h
  omega

/-! ### Differences -/

/-- The place of a number on a line on which the infinities lie beyond every sum of two finite
numbers. -/
def place : Binary64 → Int
  | nan => 0
  | infinite negative => signed negative (3 * limit)
  | finite negative units _ => signed negative units

theorem place_eq_of_rank (h : x.rank = some a) :
    x.place = if a.natAbs < limit then a else 3 * a := by
  cases x with
  | nan => cases h
  | infinite negative =>
    cases h
    rw [natAbs_signed, if_neg (Nat.lt_irrefl limit)]
    cases negative <;> simp only [place, signed_false, signed_true] <;> omega
  | finite negative units hunits =>
    cases h
    rw [natAbs_signed, if_pos hunits.1]
    rfl

theorem place_le_place (h : x ≤ y) : x.place ≤ y.place := by
  obtain ⟨a, b, ha, hb, hab⟩ := exists_rank_of_le h
  have hamax := natAbs_rank_le ha
  have hbmax := natAbs_rank_le hb
  rw [place_eq_of_rank ha, place_eq_of_rank hb]
  split_ifs <;> omega

theorem place_lt_place (h : x < y) : x.place < y.place := by
  obtain ⟨a, b, ha, hb, hab⟩ := exists_rank_of_lt h
  have hamax := natAbs_rank_le ha
  have hbmax := natAbs_rank_le hb
  rw [place_eq_of_rank ha, place_eq_of_rank hb]
  split_ifs <;> omega

theorem place_neg (x : Binary64) : (-x).place = -x.place := by
  cases x with
  | nan => rfl
  | infinite negative => exact signed_not negative _
  | finite negative units hunits => exact signed_not negative _

theorem exists_signed_add (s t : Bool) {m n : Nat} (h : n ≤ m) :
    ∃ k, m - n ≤ k ∧ signed s m + signed t n = signed s k := by
  by_cases hsign : s = t
  · subst hsign
    refine ⟨m + n, by omega, ?_⟩
    cases s <;> simp only [signed_false, signed_true] <;> omega
  · refine ⟨m - n, le_rfl, ?_⟩
    cases s with
    | false =>
      obtain rfl : t = true := by simpa using hsign
      rw [signed_false, signed_false, signed_true]
      omega
    | true =>
      obtain rfl : t = false := by simpa using hsign
      rw [signed_true, signed_true, signed_false]
      omega

theorem rank_add_place (h : (x + y).isNaN = false) :
    (x + y).rank = some (roundedRank (x.place + y.place)) := by
  have hfar (s t : Bool) {n : Nat} (hn : n ≤ limit) :
      roundedRank (signed s (3 * limit) + signed t n) = signed s limit := by
    obtain ⟨k, hk, hsum⟩ := exists_signed_add s t (show n ≤ 3 * limit by omega)
    rw [hsum, roundedRank_of_limit_le s (by omega)]
  change (Binary64.add x y).isNaN = false at h
  change (Binary64.add x y).rank = _
  cases x with
  | nan => cases h
  | infinite s =>
    cases y with
    | nan => cases h
    | finite t n hn => exact congrArg some (hfar s t hn.1.le).symm
    | infinite t =>
      by_cases hsign : s = t
      · subst hsign
        have hdouble : signed s (3 * limit) + signed s (3 * limit) = signed s (6 * limit) := by
          cases s <;> simp only [signed_false, signed_true] <;> omega
        rw [place, hdouble, roundedRank_of_limit_le s (by omega), Binary64.add, if_pos rfl]
        rfl
      · rw [Binary64.add, if_neg hsign] at h
        cases h
  | finite s m hm =>
    cases y with
    | nan => cases h
    | infinite t =>
      rw [Int.add_comm]
      exact congrArg some (hfar t s hm.1.le).symm
    | finite t n hn => exact rank_add rfl rfl rfl rfl

theorem rank_sub_place (h : (x - y).isNaN = false) :
    (x - y).rank = some (roundedRank (x.place - y.place)) := by
  rw [Int.sub_eq_add_neg, ← place_neg]
  exact rank_add_place h

theorem sub_le_sub (hx : x ≤ x') (hy : y' ≤ y) (h : (x - y).isNaN = false)
    (h' : (x' - y').isNaN = false) : x - y ≤ x' - y' := by
  rw [le_iff_of_rank (rank_sub_place h) (rank_sub_place h')]
  exact roundedRank_mono (Int.sub_le_sub (place_le_place hx) (place_le_place hy))

theorem sub_nonneg (hle : y ≤ x) (h : (x - y).isNaN = false) : 0 ≤ x - y := by
  rw [le_iff_of_rank rank_zero (rank_sub_place h)]
  exact roundedRank_nonneg (Int.sub_nonneg_of_le (place_le_place hle))

/-- Only two infinities with the same sign have no difference. -/
theorem isNaN_sub_of_lt (hlt : y < x) : (x - y).isNaN = false := by
  obtain ⟨b, a, hb, ha, hba⟩ := exists_rank_of_lt hlt
  change (Binary64.add x (Binary64.neg y)).isNaN = false
  cases x with
  | nan => cases ha
  | infinite s =>
    cases y with
    | nan => cases hb
    | finite t n hn => rfl
    | infinite t =>
      cases ha
      cases hb
      -- infinities with the same sign have the same rank, so neither is below the other
      cases s <;> cases t <;> first | rfl | (simp only [signed_false, signed_true] at hba; omega)
  | finite s m hm =>
    cases y with
    | nan => cases hb
    | infinite t => rfl
    | finite t n hn => exact isNaN_sub rfl rfl

/-- Different numbers have a difference: it is never rounded to zero. -/
theorem sub_pos (hlt : y < x) : 0 < x - y := by
  rw [lt_iff_of_rank rank_zero (rank_sub_place (isNaN_sub_of_lt hlt))]
  exact roundedRank_pos (Int.sub_pos_of_lt (place_lt_place hlt))

/-! ### Quotients -/

theorem rank_div {m n : Nat} (hxfin : x.isFinite = true) (hyfin : y.isFinite = true)
    (hx : x.rank = some (m : Int)) (hy : y.rank = some (n : Int)) (hpos : 0 < n) :
    (x / y).rank = some ((min (roundUnits (m * unitsPerOne) n) limit : Nat) : Int) := by
  cases x with
  | nan => cases hxfin
  | infinite negative => cases hxfin
  | finite s u hu =>
    cases y with
    | nan => cases hyfin
    | infinite negative => cases hyfin
    | finite t v hv =>
      have hum : signed s u = m := Option.some.inj hx
      have hvn : signed t v = n := Option.some.inj hy
      obtain rfl := eq_of_signed_eq hum
      obtain rfl := eq_of_signed_eq hvn
      obtain rfl : t = false := by
        cases t with
        | false => rfl
        | true => exact absurd (eq_zero_of_signed_true hvn) (Nat.ne_of_gt hpos)
      change (Binary64.div _ _).rank = _
      rw [Binary64.div, if_neg (Nat.ne_of_gt hpos), rank_ofRatio]
      cases s with
      | false => rfl
      | true =>
        -- the quotient of negative zero is negative zero
        rw [eq_zero_of_signed_true hum, Nat.zero_mul, roundUnits_zero hpos, Nat.zero_min]
        rfl

theorem rank_finite_div_infinite (hx : x.isFinite = true) (negative : Bool) :
    (x / infinite negative).rank = some 0 := by
  cases x with
  | nan => cases hx
  | infinite s => cases hx
  | finite s u hu => exact congrArg some (signed_zero _)

theorem unit_of_rank {r : Nat} (hr : x.rank = some (r : Int)) (hle : r ≤ unitsPerOne) :
    0 ≤ x ∧ x ≤ 1 :=
  ⟨(le_iff_of_rank rank_zero hr).mpr (Int.natCast_nonneg r),
    (le_iff_of_rank hr rank_one).mpr (Int.ofNat_le.mpr hle)⟩

/-- The quotient of a number by a greater one lies between zero and one. -/
theorem div_unit (hx : 0 ≤ x) (hxy : x ≤ y) (hy : 0 < y) (hfin : x.isFinite = true) :
    0 ≤ x / y ∧ x / y ≤ 1 := by
  obtain ⟨a, b, ha, hb, hab⟩ := exists_rank_of_le hxy
  have hanonneg : 0 ≤ a := (le_iff_of_rank rank_zero ha).mp hx
  have hbpos : 0 < b := (lt_iff_of_rank rank_zero hb).mp hy
  obtain ⟨m, rfl⟩ := Int.eq_ofNat_of_zero_le hanonneg
  obtain ⟨n, rfl⟩ := Int.eq_ofNat_of_zero_le hbpos.le
  have hpos : 0 < n := Int.natCast_pos.mp hbpos
  cases y with
  | nan => cases hb
  | infinite t => exact unit_of_rank (rank_finite_div_infinite hfin t) (Nat.zero_le _)
  | finite t v hv =>
    refine unit_of_rank (rank_div hfin rfl ha hb hpos) ((Nat.min_le_left _ _).trans ?_)
    refine roundUnits_le_unitsPerOne hpos ?_
    rw [Nat.mul_comm]
    exact Nat.mul_le_mul_left _ (Int.ofNat_le.mp hab)

theorem div_eq_nan (hx : 0 ≤ x) (hxy : x ≤ y) (hinf : x.isFinite = false) : x / y = nan := by
  obtain ⟨a, b, ha, hb, hab⟩ := exists_rank_of_le hxy
  have hanonneg : 0 ≤ a := (le_iff_of_rank rank_zero ha).mp hx
  have halimit : ¬ a.natAbs < limit := by rw [← isFinite_iff_of_rank ha, hinf]; nofun
  have hyinf : ¬ y.isFinite = true := by
    rw [isFinite_iff_of_rank hb]
    omega
  cases x with
  | nan => cases ha
  | finite s u hu => cases hinf
  | infinite s =>
    cases y with
    | nan => cases hb
    | infinite t => rfl
    | finite t v hv => exact absurd rfl hyinf

theorem isNaN_div_iff (hy : ¬ y ≤ 0) :
    (x / y).isNaN = true ↔
      x.isNaN = true ∨ y.isNaN = true ∨ (x.isFinite = false ∧ y.isFinite = false) := by
  change (Binary64.div x y).isNaN = true ↔ _
  cases y with
  | nan => cases x <;> simp [Binary64.div, isNaN]
  | infinite t => cases x <;> simp [Binary64.div, isNaN, isFinite]
  | finite t n hn =>
    have hpos : n ≠ 0 := by
      rintro rfl
      exact hy ((le_iff_of_rank rfl rank_zero).mpr (signed_zero t).le)
    cases x with
    | nan => simp [Binary64.div, isNaN]
    | infinite s => simp [Binary64.div, isNaN, isFinite]
    | finite s m hm =>
      rw [Binary64.div, if_neg hpos, isNaN_ofRatio]
      simp [isNaN, isFinite]

theorem isNaN_sub_iff (hx : x.isFinite = true) : (x - y).isNaN = true ↔ y.isNaN = true := by
  cases x with
  | nan => cases hx
  | infinite s => cases hx
  | finite s m hm =>
    cases y with
    | nan => exact Iff.rfl
    | infinite t => exact Iff.rfl
    | finite t n hn =>
      have hsub : (finite s m hm - finite t n hn).isNaN = false := isNaN_sub rfl rfl
      rw [hsub]
      exact Iff.rfl

/-! ### Squares -/

def sign? : Binary64 → Option Bool
  | nan => none
  | infinite negative => some negative
  | finite negative _ _ => some negative

theorem sign?_ofRatio (negative : Bool) (num den : Nat) :
    (ofRatio negative num den).sign? = some negative := by
  unfold ofRatio ofUnits
  split <;> rfl

theorem nonpos_of_sign? (h : x.sign? = some true) : x ≤ 0 := by
  cases x with
  | nan => cases h
  | infinite s =>
    cases h
    exact (le_iff_of_rank rfl rank_zero).mpr (Int.neg_nonpos_of_nonneg (Int.natCast_nonneg limit))
  | finite s m hm =>
    cases h
    exact (le_iff_of_rank rfl rank_zero).mpr (Int.neg_nonpos_of_nonneg (Int.natCast_nonneg m))

theorem finite_mul_finite {s t : Bool} {m n : Nat} (hm : Representable m) (hn : Representable n) :
    finite s m hm * finite t n hn = ofRatio (s != t) (m * n) unitsPerOne := by
  change Binary64.mul _ _ = _
  rw [Binary64.mul]

theorem mul_nan (x : Binary64) : x * nan = nan := by
  cases x <;> rfl

/-- A negative multiple of a square is not positive. -/
theorem mul_mul_self_nonpos {n : Nat} (hn : Representable n) (hpos : n ≠ 0)
    (hx : x.isNaN = false) : finite true n hn * x * x ≤ 0 := by
  refine nonpos_of_sign? ?_
  cases x with
  | nan => cases hx
  | infinite t =>
    have hfirst : finite true n hn * infinite t = infinite (true != t) := if_neg hpos
    rw [hfirst]
    cases t <;> rfl
  | finite t m hm =>
    rw [finite_mul_finite, ofRatio, ofUnits]
    split
    · rw [finite_mul_finite, sign?_ofRatio]
      cases t <;> rfl
    · -- only a factor other than zero can overflow, and then the second product is infinite
      rename_i hoverflow
      have hzero : m ≠ 0 := by
        rintro rfl
        rw [Nat.mul_zero, roundUnits_zero unitsPerOne_pos] at hoverflow
        exact hoverflow representable_zero
      have hsecond : infinite (true != t) * finite t m hm = infinite ((true != t) != t) :=
        if_neg hzero
      rw [hsecond]
      cases t <;> rfl

end FuzzyAlgebra.Binary64

import FuzzyAlgebra.Proofs.Binary64.Negation

/-!
# Monotone quotients and squares

Quotients by a positive finite number keep the order, infinities included. So do products with the
square, up to zero, if the factor lies between minus one and zero: the first product never overflows,
and two roundings are monotone as one is.
-/

namespace FuzzyAlgebra.Binary64

variable {x y z w : Binary64} {a b : Int} {u : Nat}

/-! ### Around infinities -/

theorem eq_infinite_false_of_le (h : infinite false ≤ x) : x = infinite false := by
  obtain ⟨b, a, hb, ha, hle⟩ := exists_rank_of_le h
  obtain rfl : (limit : Int) = b := Option.some.inj hb
  cases x with
  | nan => cases ha
  | infinite s =>
    cases s with
    | false => rfl
    | true =>
      have hpos := limit_pos
      have hneg : -(limit : Int) = a := Option.some.inj ha
      omega
  | finite s m hm =>
    have hfinite : a.natAbs < limit := (isFinite_iff_of_rank ha).mp rfl
    omega

theorem eq_infinite_true_of_le (h : x ≤ infinite true) : x = infinite true := by
  rw [← neg_neg x, eq_infinite_false_of_le (neg_le_neg_iff.mpr h)]
  rfl

theorem exists_eq_zero_of_rank (h : x.rank = some 0) :
    ∃ s, x = finite s 0 representable_zero := by
  cases x with
  | nan => cases h
  | infinite s =>
    have hlimit : limit = 0 := by rw [← natAbs_signed s limit, Option.some.inj h, Int.natAbs_zero]
    exact absurd hlimit limit_pos.ne'
  | finite s m hm =>
    obtain rfl : m = 0 := by rw [← natAbs_signed s m, Option.some.inj h, Int.natAbs_zero]
    exact ⟨s, rfl⟩

theorem isNaN_sub_of_isFinite_right (hy : y.isFinite = true) (hx : x.isNaN = false) :
    (x - y).isNaN = false := by
  cases x with
  | nan => cases hx
  | infinite s =>
    cases y with
    | nan => cases hy
    | infinite t => cases hy
    | finite t n hn => rfl
  | finite s m hm => exact isNaN_sub rfl hy

theorem rank_sub_self (hx : x.isFinite = true) : (x - x).rank = some 0 := by
  obtain ⟨a, ha⟩ := exists_rank (isNaN_of_isFinite hx)
  rw [rank_sub hx hx ha ha, Int.sub_self, roundedRank, Int.natAbs_zero,
    roundUnits_zero Nat.one_pos, Nat.zero_min, signed_zero]

/-! ### Quotients by a positive number -/

theorem exists_eq_finite_of_pos (hpos : 0 < w) (hfin : w.isFinite = true) :
    ∃ n hn, w = finite false n hn ∧ 0 < n := by
  cases w with
  | nan => cases hfin
  | infinite s => cases hfin
  | finite s n hn =>
    have hlt : 0 < signed s n := (lt_iff_of_rank rank_zero rfl).mp hpos
    cases s with
    | false => exact ⟨n, hn, rfl, Int.ofNat_lt.mp hlt⟩
    | true =>
      rw [signed_true] at hlt
      omega

theorem finite_div_finite (s : Bool) {m n : Nat} (hm : Representable m) (hn : Representable n)
    (hpos : 0 < n) : finite s m hm / finite false n hn = ofRatio s (m * unitsPerOne) n := by
  change Binary64.div _ _ = _
  rw [Binary64.div, if_neg (Nat.ne_of_gt hpos), Bool.bne_false]

theorem infinite_div_finite (s : Bool) {n : Nat} (hn : Representable n) :
    infinite s / finite false n hn = infinite s :=
  congrArg infinite (Bool.bne_false s)

theorem div_le_div_right (hxy : x ≤ y) (hpos : 0 < w) (hfin : w.isFinite = true) :
    x / w ≤ y / w := by
  obtain ⟨n, hn, rfl, hn0⟩ := exists_eq_finite_of_pos hpos hfin
  have hnumber (z : Binary64) (hz : z.isNaN = false) : (z / finite false n hn).isNaN = false := by
    cases z with
    | nan => cases hz
    | infinite s => rfl
    | finite s m hm =>
      rw [finite_div_finite s hm hn hn0]
      exact isNaN_ofRatio _ _ _
  cases x with
  | nan => cases hxy
  | infinite s =>
    cases s with
    | true =>
      rw [infinite_div_finite]
      exact infinite_true_le (hnumber y (isNaN_right_of_le hxy))
    | false =>
      rw [eq_infinite_false_of_le hxy]
      exact le_refl (hnumber _ rfl)
  | finite s m hm =>
    cases y with
    | nan => cases hxy
    | infinite t =>
      cases t with
      | true => cases eq_infinite_true_of_le hxy
      | false =>
        rw [infinite_div_finite]
        exact le_infinite_false (hnumber _ rfl)
    | finite t k hk =>
      have hmono : Monotone fun k => min (roundUnits (k * unitsPerOne) n) limit := fun i j hij =>
        min_le_min_right _ (roundUnits_mono n (Nat.mul_le_mul_right _ hij))
      have hzero : min (roundUnits (0 * unitsPerOne) n) limit = 0 := by
        rw [Nat.zero_mul, roundUnits_zero hn0, Nat.zero_min]
      rw [finite_div_finite s hm hn hn0, finite_div_finite t hk hn hn0,
        le_iff_of_rank (rank_ofRatio _ _ _) (rank_ofRatio _ _ _)]
      exact signed_le_signed hmono hzero ((le_iff_of_rank rfl rfl).mp hxy)

/-! ### Negative multiples of squares -/

/-- The units of a number of `m` units, multiplied twice into `u` units. -/
def squareUnits (u m : Nat) : Nat :=
  min (roundUnits (roundUnits (u * m) unitsPerOne * m) unitsPerOne) limit

theorem squareUnits_mono (u : Nat) {m n : Nat} (h : m ≤ n) : squareUnits u m ≤ squareUnits u n := by
  apply min_le_min_right
  apply roundUnits_mono
  exact Nat.mul_le_mul (roundUnits_mono _ (Nat.mul_le_mul_left u h)) h

theorem squareUnits_zero (u : Nat) : squareUnits u 0 = 0 := by
  rw [squareUnits, Nat.mul_zero, roundUnits_zero unitsPerOne_pos, Nat.zero_min]

theorem rank_mul_mul_self (hu : Representable u) (hle : u ≤ unitsPerOne) (s : Bool) {m : Nat}
    (hm : Representable m) :
    (finite true u hu * finite s m hm * finite s m hm).rank = some (-(squareUnits u m : Int)) := by
  -- a factor of at most one in magnitude does not overflow
  have hbound : roundUnits (u * m) unitsPerOne ≤ m := by
    calc roundUnits (u * m) unitsPerOne ≤ roundUnits (m * unitsPerOne) unitsPerOne :=
          roundUnits_mono _ ((Nat.mul_comm u m).trans_le (Nat.mul_le_mul_left m hle))
      _ = m := roundUnits_of_dvd unitsPerOne_pos hm.2
  have hrep : Representable (roundUnits (u * m) unitsPerOne) :=
    ⟨hbound.trans_lt hm.1, spacing_dvd_roundUnits _ _⟩
  have hsign : ((true != s) != s) = true := by cases s <;> rfl
  have hfirst : finite true u hu * finite s m hm =
      finite (true != s) (roundUnits (u * m) unitsPerOne) hrep := by
    rw [finite_mul_finite, ofRatio, ofUnits, dif_pos hrep]
  rw [hfirst, finite_mul_finite, hsign, rank_ofRatio, squareUnits, signed_true]

theorem rank_mul_mul_self_of_zero (hu : Representable u) (hle : u ≤ unitsPerOne)
    (hz : z.rank = some 0) : (finite true u hu * z * z).rank = some 0 := by
  obtain ⟨s, rfl⟩ := exists_eq_zero_of_rank hz
  rw [rank_mul_mul_self hu hle s representable_zero, squareUnits_zero]
  rfl

theorem mul_mul_self_infinite (hu : Representable u) (hpos : u ≠ 0) (s : Bool) :
    finite true u hu * infinite s * infinite s = infinite true := by
  have hfirst : finite true u hu * infinite s = infinite (true != s) := if_neg hpos
  rw [hfirst]
  cases s <;> rfl

/-- Up to zero, a negative multiple of the square is monotone. -/
theorem mul_mul_self_le (hu : Representable u) (hpos : u ≠ 0) (hle : u ≤ unitsPerOne)
    (hzw : z ≤ w) (hw : w ≤ 0) :
    finite true u hu * z * z ≤ finite true u hu * w * w := by
  cases z with
  | nan => cases hzw
  | infinite s =>
    rw [mul_mul_self_infinite hu hpos]
    apply infinite_true_le
    exact isNaN_left_of_le (mul_mul_self_nonpos hu hpos (isNaN_left_of_le hw))
  | finite s m hm =>
    cases w with
    | nan => cases hzw
    | infinite t =>
      cases t with
      | true => cases eq_infinite_true_of_le hzw
      | false => cases eq_infinite_false_of_le hw
    | finite t n hn =>
      have hnm : n ≤ m := le_of_signed_le_signed ((le_iff_of_rank rfl rfl).mp hzw)
        ((le_iff_of_rank rfl rank_zero).mp hw)
      rw [le_iff_of_rank (rank_mul_mul_self hu hle s hm) (rank_mul_mul_self hu hle t hn)]
      exact Int.neg_le_neg (Int.ofNat_le.mpr (squareUnits_mono u hnm))

end FuzzyAlgebra.Binary64

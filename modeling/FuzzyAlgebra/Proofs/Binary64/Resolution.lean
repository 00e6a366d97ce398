import FuzzyAlgebra.Proofs.Binary64.Quotient

/-!
# How fine the numbers are

Rounding moves a quotient by at most half a spacing, and past a representable magnitude as soon as
the quotient lies more than half a spacing above that. Below a power of two the numbers keep a
distance of one part in `2 ^ 53` from it. So the quotient by a power of two, which is exact, always
differs from that by a smaller number.
-/

namespace FuzzyAlgebra.Binary64

variable {num den units w e k : Nat} {x y : Binary64}

/-! ### Within half a spacing -/

theorem nearestEven_within (hden : 0 < den) :
    2 * num ≤ 2 * (nearestEven num den * den) + den ∧
      2 * (nearestEven num den * den) ≤ 2 * num + den := by
  have hnum := Nat.div_add_mod num den
  have hmod := Nat.mod_lt num hden
  have hbelow : num / den * den = den * (num / den) := Nat.mul_comm _ _
  have habove : (num / den + 1) * den = den * (num / den) + den := by ring
  simp only [nearestEven]
  split_ifs <;> omega

theorem roundUnits_within (num : Nat) (hden : 0 < den) :
    2 * num ≤ 2 * (roundUnits num den * den) + den * spacing (num / den) ∧
      2 * (roundUnits num den * den) ≤ 2 * num + den * spacing (num / den) := by
  have hscale : roundUnits num den * den =
      nearestEven num (den * spacing (num / den)) * (den * spacing (num / den)) := by
    rw [roundUnits_eq]
    ring
  rw [hscale]
  exact nearestEven_within (Nat.mul_pos hden (spacing_pos _))

/-! ### Past half a spacing -/

theorem lt_nearestEven (hden : 0 < den) (h : (2 * k + 1) * den < 2 * num) :
    k < nearestEven num den := by
  have hnum := Nat.div_add_mod num den
  have hexpand : (2 * k + 1) * den = 2 * (den * k) + den := by ring
  have hk : k ≤ num / den := by
    rw [Nat.le_div_iff_mul_le hden, Nat.mul_comm]
    omega
  rcases Nat.lt_or_eq_of_le hk with hlt | heq
  · exact hlt.trans_le (div_le_nearestEven num den)
  · -- the remainder is more than half the divisor
    rw [← heq] at hnum
    simp only [nearestEven]
    rw [← heq]
    split_ifs <;> omega

theorem lt_roundUnits (hden : 0 < den) (hdvd : spacing units ∣ units)
    (h : (2 * units + spacing units) * den < 2 * num) : units < roundUnits num den := by
  have hle : units ≤ num / den := by
    have hexpand : (2 * units + spacing units) * den = 2 * (units * den) + spacing units * den := by
      ring
    rw [Nat.le_div_iff_mul_le hden]
    omega
  by_cases hspacing : spacing (num / den) = spacing units
  · obtain ⟨k, hk⟩ := hdvd
    rw [roundUnits_eq, hspacing]
    have hnearest : k < nearestEven num (den * spacing units) := by
      apply lt_nearestEven (Nat.mul_pos hden (spacing_pos units))
      calc (2 * k + 1) * (den * spacing units)
          = (2 * (spacing units * k) + spacing units) * den := by ring
        _ = (2 * units + spacing units) * den := by rw [← hk]
        _ < 2 * num := h
    calc units = k * spacing units := hk.trans (Nat.mul_comm _ _)
      _ < nearestEven num (den * spacing units) * spacing units :=
        Nat.mul_lt_mul_of_pos_right hnearest (spacing_pos units)
  · -- a power of two lies between the magnitude and the quotient
    have hlog : units.log2 ≤ (num / den).log2 := by
      rw [Nat.log2_eq_log_two, Nat.log2_eq_log_two]
      exact Nat.log_mono_right hle
    have hlt : units.log2 < (num / den).log2 := by
      apply Nat.lt_of_le_of_ne hlog
      intro heq
      exact hspacing (by rw [spacing, spacing, heq])
    have hne : num / den ≠ 0 := by
      intro hzero
      rw [hzero] at hlt
      exact absurd hlt (by simp)
    have hpow : spacing (num / den) ∣ 2 ^ (num / den).log2 := pow_dvd_pow 2 (Nat.sub_le _ 52)
    calc units < 2 ^ (units.log2 + 1) := Nat.lt_log2_self
      _ ≤ 2 ^ (num / den).log2 := Nat.pow_le_pow_right Nat.two_pos hlt
      _ ≤ roundUnits num den := le_roundUnits hpow (Nat.log2_self_le hne)

/-! ### Powers of two -/

theorem spacing_dvd_of_lt_two_pow (h : units < 2 ^ (e + 53)) : spacing units ∣ 2 ^ e := by
  have hlog : units.log2 < e + 53 := by
    by_cases hzero : units = 0
    · rw [hzero, Nat.log2_zero]
      omega
    · exact (Nat.log2_lt hzero).mpr h
  exact pow_dvd_pow 2 (by omega)

theorem two_pow_dvd_spacing (h : 2 ^ (e + 52) ≤ units) : 2 ^ e ∣ spacing units := by
  have hpos : units ≠ 0 := ((Nat.two_pow_pos _).trans_le h).ne'
  have hlog : e + 52 ≤ units.log2 := (Nat.le_log2 hpos).mpr h
  exact pow_dvd_pow 2 (by omega)

theorem add_two_pow_le (hdvd : spacing w ∣ w) (hlt : w < 2 ^ e) (he : 53 ≤ e) :
    w + 2 ^ (e - 53) ≤ 2 ^ e := by
  have hhalf : 2 ^ e = 2 * 2 ^ (e - 1) := by
    rw [← Nat.pow_succ']
    congr 1
    omega
  by_cases hlow : w < 2 ^ (e - 1)
  · have hsmall : 2 ^ (e - 53) ≤ 2 ^ (e - 1) := Nat.pow_le_pow_right Nat.two_pos (by omega)
    omega
  · -- in the last octave both are multiples of the spacing
    have hpos : w ≠ 0 := by
      have hone : 0 < 2 ^ (e - 1) := Nat.two_pow_pos _
      omega
    have hlog : w.log2 = e - 1 := by
      rw [Nat.log2_eq_iff hpos]
      exact ⟨Nat.not_lt.mp hlow, hlt.trans_eq (by congr 1; omega)⟩
    have hspacing : spacing w = 2 ^ (e - 53) := by
      rw [spacing, hlog]
      congr 1
    rw [hspacing] at hdvd
    have hpow : 2 ^ (e - 53) ∣ 2 ^ e := pow_dvd_pow 2 (Nat.sub_le e 53)
    have hdiff : 2 ^ (e - 53) ∣ 2 ^ e - w := Nat.dvd_sub hpow hdvd
    have hle : 2 ^ (e - 53) ≤ 2 ^ e - w := Nat.le_of_dvd (by omega) hdiff
    omega

theorem two_pow_mul_spacing_le (h : 2 ^ 52 ≤ units) : 2 ^ 53 * spacing units ≤ 2 * units := by
  have hpos : units ≠ 0 := by omega
  have hlog : 52 ≤ units.log2 := (Nat.le_log2 hpos).mpr h
  calc 2 ^ 53 * spacing units = 2 * 2 ^ units.log2 := by
        rw [spacing, ← Nat.pow_add, ← Nat.pow_succ']
        congr 1
        omega
    _ ≤ 2 * units := Nat.mul_le_mul_left 2 (Nat.log2_self_le hpos)

theorem spacing_mul_two_pow_dvd (hdvd : spacing units ∣ units) (k : Nat) :
    spacing (units * 2 ^ k) ∣ units * 2 ^ k := by
  by_cases hzero : units = 0
  · rw [hzero, Nat.zero_mul]
    exact Nat.dvd_zero _
  · have hpos : units * 2 ^ k ≠ 0 := Nat.mul_ne_zero hzero (Nat.two_pow_pos k).ne'
    have hlog : (units * 2 ^ k).log2 = units.log2 + k := by
      rw [Nat.log2_eq_iff hpos, Nat.pow_add]
      refine ⟨Nat.mul_le_mul_right _ (Nat.log2_self_le hzero), ?_⟩
      calc units * 2 ^ k < 2 ^ (units.log2 + 1) * 2 ^ k :=
            Nat.mul_lt_mul_of_pos_right Nat.lt_log2_self (Nat.two_pow_pos k)
        _ = 2 ^ (units.log2 + k + 1) := by rw [← Nat.pow_add]; congr 1; omega
    have hspacing : spacing (units * 2 ^ k) ∣ spacing units * 2 ^ k := by
      rw [spacing, spacing, hlog, ← Nat.pow_add]
      exact pow_dvd_pow 2 (by omega)
    exact hspacing.trans (Nat.mul_dvd_mul_right hdvd _)

/-- Divided by less than a power of two, a number is more than divided by that power. -/
theorem lt_roundUnits_of_lt_two_pow (hunits : 2 ^ 52 ≤ units) (hdvd : spacing units ∣ units)
    (hw : spacing w ∣ w) (hpos : 0 < w) (hlt : w < 2 ^ e) (he : 53 ≤ e) :
    units < roundUnits (units * 2 ^ e) w := by
  apply lt_roundUnits hpos hdvd
  have hgap := add_two_pow_le hw hlt he
  have hspacing := two_pow_mul_spacing_le hunits
  have hpow : 2 ^ e = 2 ^ 53 * 2 ^ (e - 53) := by
    rw [← Nat.pow_add]
    congr 1
    omega
  have hless : 0 < spacing units * 2 ^ (e - 53) :=
    Nat.mul_pos (spacing_pos units) (Nat.two_pow_pos _)
  have hscaled : (2 * units + spacing units) * (w + 2 ^ (e - 53)) ≤
      2 * (units * 2 ^ e) + 2 * units * 2 ^ (e - 53) := by
    calc (2 * units + spacing units) * (w + 2 ^ (e - 53))
        ≤ (2 * units + spacing units) * 2 ^ e := Nat.mul_le_mul_left _ hgap
      _ = 2 * (units * 2 ^ e) + 2 ^ 53 * spacing units * 2 ^ (e - 53) := by rw [hpow]; ring
      _ ≤ 2 * (units * 2 ^ e) + 2 * units * 2 ^ (e - 53) :=
        Nat.add_le_add_left (Nat.mul_le_mul_right _ hspacing) _
  have hexpand : (2 * units + spacing units) * (w + 2 ^ (e - 53)) =
      (2 * units + spacing units) * w + 2 * units * 2 ^ (e - 53) +
        spacing units * 2 ^ (e - 53) := by ring
  omega

/-! ### Quotients by the machine epsilon -/

-- the exponent of the epsilon stays a variable, so that nothing evaluates its power
theorem unitsPerOne_eq (he : e + 52 = 1074) : unitsPerOne = 2 ^ e * 2 ^ 52 := by
  rw [unitsPerOne, ← he, Nat.pow_add]

theorem two_pow_lt_limit (h : k < 2098) : 2 ^ k < limit := by
  have hmono {m n : Nat} (h : m < n) : (2 : Nat) ^ m < 2 ^ n :=
    Nat.pow_lt_pow_right Nat.one_lt_two h
  exact hmono h

theorem rank_epsilon (he : e + 52 = 1074) : epsilon.rank = some ((2 ^ e : Nat) : Int) := by
  have hunits : roundUnits (1 * unitsPerOne) (2 ^ 52) = 2 ^ e := by
    rw [Nat.one_mul, unitsPerOne_eq he]
    exact roundUnits_of_dvd (Nat.two_pow_pos 52) (spacing_dvd_two_pow le_rfl)
  have hpos : ¬ (1 : Int) < 0 := by omega
  rw [epsilon, ofQuotient, Int.natAbs_one, decide_eq_false hpos, rank_ofRatio, hunits,
    min_eq_left (two_pow_lt_limit (by omega)).le, signed_false]

theorem isFinite_epsilon : epsilon.isFinite = true := by
  obtain ⟨e, he⟩ : ∃ e, e + 52 = 1074 := ⟨1022, rfl⟩
  rw [isFinite_iff_of_rank (rank_epsilon he), Int.natAbs_natCast]
  exact two_pow_lt_limit (by omega)

theorem spacing_dvd_of_rank (hfin : x.isFinite = true) {n : Nat} (h : x.rank = some (n : Int)) :
    spacing n ∣ n := by
  cases x with
  | nan => cases h
  | infinite s => cases hfin
  | finite s u hu =>
    obtain rfl := eq_of_signed_eq (Option.some.inj h)
    exact hu.2

/-- A quotient of two numbers below the epsilon exceeds the quotient by the epsilon. -/
theorem div_epsilon_lt_div (hx : 0 < x) (hxy : x ≤ y) (hy : y < epsilon) :
    x / epsilon < x / y := by
  obtain ⟨e, he⟩ : ∃ e, e + 52 = 1074 := ⟨1022, rfl⟩
  obtain ⟨a, b, ha, hb, hab⟩ := exists_rank_of_le hxy
  have hepsilon := rank_epsilon he
  have hapos : 0 < a := (lt_iff_of_rank rank_zero ha).mp hx
  have hblt : b < ((2 ^ e : Nat) : Int) := (lt_iff_of_rank hb hepsilon).mp hy
  obtain ⟨p, rfl⟩ := Int.eq_ofNat_of_zero_le hapos.le
  obtain ⟨w, rfl⟩ := Int.eq_ofNat_of_zero_le (hapos.le.trans hab)
  have hp : 0 < p := Int.natCast_pos.mp hapos
  have hpw : p ≤ w := Int.ofNat_le.mp hab
  have hw : w < 2 ^ e := Int.ofNat_lt.mp hblt
  have hyfin : y.isFinite = true :=
    isFinite_of_le (le_trans (le_of_lt hx) hxy) (le_of_lt hy) isFinite_epsilon
  have hxfin : x.isFinite = true := isFinite_of_le (le_of_lt hx) hxy hyfin
  have hpdvd := spacing_dvd_of_rank hxfin ha
  have hwdvd := spacing_dvd_of_rank hyfin hb
  have hscale : p * unitsPerOne = p * 2 ^ 52 * 2 ^ e := by rw [unitsPerOne_eq he]; ring
  have hexact : roundUnits (p * unitsPerOne) (2 ^ e) = p * 2 ^ 52 := by
    rw [hscale]
    exact roundUnits_of_dvd (Nat.two_pow_pos e) (spacing_mul_two_pow_dvd hpdvd 52)
  have hmore : p * 2 ^ 52 < roundUnits (p * unitsPerOne) w := by
    rw [hscale]
    exact lt_roundUnits_of_lt_two_pow (Nat.le_mul_of_pos_left _ hp)
      (spacing_mul_two_pow_dvd hpdvd 52) hwdvd (hp.trans_le hpw) hw (by omega)
  have hunit : roundUnits (p * unitsPerOne) w ≤ unitsPerOne := by
    apply roundUnits_le_unitsPerOne (hp.trans_le hpw)
    rw [Nat.mul_comm]
    exact Nat.mul_le_mul_left _ hpw
  rw [lt_iff_of_rank (rank_div hxfin isFinite_epsilon ha hepsilon (Nat.two_pow_pos e))
    (rank_div hxfin hyfin ha hb (hp.trans_le hpw)), hexact,
    min_eq_left (hunit.trans unitsPerOne_le_limit)]
  exact Int.ofNat_lt.mpr ((Nat.min_le_left _ _).trans_lt hmore)

end FuzzyAlgebra.Binary64

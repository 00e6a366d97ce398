import FuzzyAlgebra.Proofs.Binary64.Resolution
import FuzzyAlgebra.Proofs.Operator.Threshold
import FuzzyAlgebra.Proofs.Shape.Mirror

/-!
# Shapes have one peak

The degree of a shape rises to a peak, is one there, and falls from it. On one ramp the parts of two
numbers keep their order under one divisor; elsewhere the degree is zero before the ramp and one
after it. What holds before the peak holds past it, since the mirror image turns the two sides
around. On bell curves the exponent has its peak at the middle, and a monotone exponential keeps it.
-/

namespace FuzzyAlgebra

open Binary64

variable {a b x y : Binary64}

theorem isFinite_rampDivisor (h : (b - a).isFinite = true) : (rampDivisor a b).isFinite = true := by
  unfold rampDivisor
  split
  · exact isFinite_epsilon
  · exact h

theorem part_le_part (hax : a < x) (hxy : x ≤ y) (hyb : y < b) (h : (b - a).isFinite = true) :
    (x - a) / rampDivisor a b ≤ (y - a) / rampDivisor a b := by
  have hay : a < y := Binary64.lt_of_lt_of_le hax hxy
  have hparts : x - a ≤ y - a := Binary64.sub_le_sub hxy
    (Binary64.le_refl (isNaN_left_of_lt hax)) (isNaN_sub_of_lt hax) (isNaN_sub_of_lt hay)
  apply Binary64.div_le_div_right hparts _ (isFinite_rampDivisor h)
  exact (rampDivisor_bounds (rising_part_le hay hyb)).1

/-! ### Trapezoids -/

namespace Trapezoid

variable {t : Trapezoid}

theorem degreeAt_of_level (hbx : t.b ≤ x) (hxc : x ≤ t.c) : t.degreeAt x = 1 := by
  rw [degreeAt, isNaN_left_of_le hxc, if_neg Bool.false_ne_true, if_pos ⟨hbx, hxc⟩]

theorem degreeAt_of_outside (houtside : x ≤ t.a ∨ t.d ≤ x) (hlevel : ¬ (t.b ≤ x ∧ x ≤ t.c)) :
    t.degreeAt x = 0 := by
  have hx : x.isNaN = false := houtside.elim isNaN_left_of_le isNaN_right_of_le
  rw [degreeAt, hx, if_neg Bool.false_ne_true, if_neg hlevel, if_pos houtside]

theorem degreeAt_unit (hrising : (t.b - t.a).isFinite = true)
    (hfalling : (t.d - t.c).isFinite = true) (hx : x.isNaN = false) :
    0 ≤ t.degreeAt x ∧ t.degreeAt x ≤ 1 :=
  (t.degreeAt_cases hx).1 (not_overflowed hrising hfalling)

theorem degreeAt_le_degreeAt (hrising : (t.b - t.a).isFinite = true)
    (hfalling : (t.d - t.c).isFinite = true) (hxy : x ≤ y) (hyc : y ≤ t.c) :
    t.degreeAt x ≤ t.degreeAt y := by
  have hx := isNaN_left_of_le hxy
  have hy := isNaN_right_of_le hxy
  by_cases hby : t.b ≤ y
  · rw [degreeAt_of_level hby hyc]
    exact (degreeAt_unit hrising hfalling hx).2
  · have hb : t.b.isNaN = false := isNaN_left_of_le t.level
    have hyb : y < t.b := Binary64.lt_of_not_le hb hy hby
    have hxb : x < t.b := Binary64.lt_of_le_of_lt hxy hyb
    by_cases hxa : x ≤ t.a
    · rw [degreeAt_of_outside (.inl hxa) fun h => Binary64.not_le_of_lt hxb h.1]
      exact (degreeAt_unit hrising hfalling hy).1
    · have hax : t.a < x := Binary64.lt_of_not_le hx (isNaN_left_of_le t.rising) hxa
      rw [degreeAt_rising hax hxb, degreeAt_rising (Binary64.lt_of_lt_of_le hax hxy) hyb]
      exact part_le_part hax hxy hyb hrising

end Trapezoid

/-! ### Bell curves -/

namespace Gaussian

variable {g : Gaussian}

theorem zero_lt_sigma (hsigma : g.sigma.isFinite = true) : 0 < g.sigma :=
  Binary64.lt_of_not_le (isNaN_of_isFinite hsigma) isNaN_zero g.wide

theorem deviation_le_deviation (hmu : g.mu.isFinite = true) (hsigma : g.sigma.isFinite = true)
    (hxy : x ≤ y) : g.deviation x ≤ g.deviation y := by
  have hdistance : x - g.mu ≤ y - g.mu :=
    Binary64.sub_le_sub hxy (Binary64.le_refl (isNaN_of_isFinite hmu))
      (isNaN_sub_of_isFinite_right hmu (isNaN_left_of_le hxy))
      (isNaN_sub_of_isFinite_right hmu (isNaN_right_of_le hxy))
  exact Binary64.div_le_div_right hdistance (zero_lt_sigma hsigma) hsigma

theorem rank_deviation_mu (hmu : g.mu.isFinite = true) (hsigma : g.sigma.isFinite = true) :
    (g.deviation g.mu).rank = some 0 := by
  obtain ⟨n, hn, hwidth, hpos⟩ := exists_eq_finite_of_pos (zero_lt_sigma hsigma) hsigma
  have hzero := rank_sub_self hmu
  have hfinite : (g.mu - g.mu).isFinite = true :=
    (isFinite_iff_of_rank hzero).mpr limit_pos
  rw [deviation, hwidth, rank_div (m := 0) (n := n) hfinite rfl hzero rfl hpos, Nat.zero_mul,
    roundUnits_zero hpos, Nat.zero_min]
  rfl

theorem deviation_nonpos (hmu : g.mu.isFinite = true) (hsigma : g.sigma.isFinite = true)
    (hx : x ≤ g.mu) : g.deviation x ≤ 0 :=
  Binary64.le_trans (deviation_le_deviation hmu hsigma hx)
    ((le_iff_of_rank (rank_deviation_mu hmu hsigma) rank_zero).mpr le_rfl)

theorem exponent_nonpos (hmu : g.mu.isFinite = true) (hsigma : g.sigma.isFinite = true)
    (hx : x.isNaN = false) : g.exponent x ≤ 0 := by
  have hself := deviation_le_deviation hmu hsigma (Binary64.le_refl hx)
  obtain ⟨n, hn, hhalf, hpos, -⟩ := exists_negative_half
  rw [exponent, hhalf]
  exact mul_mul_self_nonpos hn hpos (isNaN_left_of_le hself)

theorem exponent_le_exponent (hmu : g.mu.isFinite = true) (hsigma : g.sigma.isFinite = true)
    (hxy : x ≤ y) (hy : y ≤ g.mu) : g.exponent x ≤ g.exponent y := by
  obtain ⟨n, hn, hhalf, hpos, hle⟩ := exists_negative_half
  rw [exponent, exponent, hhalf]
  exact mul_mul_self_le hn hpos hle (deviation_le_deviation hmu hsigma hxy)
    (deviation_nonpos hmu hsigma hy)

theorem exponent_mu (hmu : g.mu.isFinite = true) (hsigma : g.sigma.isFinite = true)
    (hmux : g.mu ≤ x) (hxmu : x ≤ g.mu) : (g.exponent x).eqv 0 = true := by
  obtain ⟨n, hn, hhalf, hpos, hle⟩ := exists_negative_half
  have hmiddle : (g.exponent g.mu).rank = some 0 := by
    rw [exponent, hhalf]
    exact rank_mul_mul_self_of_zero hn hle (rank_deviation_mu hmu hsigma)
  have hnonneg : 0 ≤ g.exponent x :=
    Binary64.le_trans ((le_iff_of_rank rank_zero hmiddle).mpr le_rfl)
      (exponent_le_exponent hmu hsigma hmux hxmu)
  exact eqv_iff_le.mpr ⟨hnonneg, exponent_nonpos hmu hsigma (isNaN_left_of_le hxmu)⟩

end Gaussian

/-! ### All shapes -/

namespace Shape

/-- Where the peak begins and where it ends. -/
def peak : Shape → Binary64 × Binary64
  | triangle t => (t.b, t.b)
  | trapezoid t => (t.b, t.c)
  | gaussian g => (g.mu, g.mu)

/-- The number does not lie between the feet of the ramps. A bell curve has no ramps. -/
def Outside : Shape → Binary64 → Prop
  | triangle t, x => x ≤ t.a ∨ t.c ≤ x
  | trapezoid t, x => x ≤ t.a ∨ t.d ≤ x
  | gaussian _, _ => False

/-- The parameters are finite, and so are the widths of the ramps. -/
structure Bounded (s : Shape) : Prop where
  finite : ∀ p ∈ s.parameters, p.isFinite = true
  tame : s.Tame

/-- A degree that rises up to the peak and falls from there. -/
structure Unimodal (s : Shape) (degree : Binary64 → Binary64) : Prop where
  unit : ∀ {x}, x.isNaN = false → 0 ≤ degree x ∧ degree x ≤ 1
  top : ∀ {x}, s.peak.1 ≤ x → x ≤ s.peak.2 → degree x = 1
  rising : ∀ {x y}, x ≤ y → y ≤ s.peak.2 → degree x ≤ degree y
  falling : ∀ {x y}, s.peak.1 ≤ x → x ≤ y → degree y ≤ degree x
  outside : ∀ {x}, s.Outside x → ¬ (s.peak.1 ≤ x ∧ x ≤ s.peak.2) → degree x = 0

variable {s : Shape} {exponential : Binary64 → Binary64}

theorem Bounded.gaussian {g : Gaussian} (h : (gaussian g).Bounded) :
    g.mu.isFinite = true ∧ g.sigma.isFinite = true :=
  ⟨h.finite _ (.head _), h.tame.2⟩

theorem isFinite_of_mem_mirrored {kind : ShapeKind} {numbers : List Binary64} {p : Binary64}
    (h : ∀ p ∈ numbers, p.isFinite = true) (hp : p ∈ kind.mirrored numbers) :
    p.isFinite = true := by
  unfold ShapeKind.mirrored at hp
  split at hp
  · rcases List.mem_cons.mp hp with rfl | hwidth
    · exact isFinite_neg (h _ (.head _))
    · exact h p (.tail _ hwidth)
  · rw [List.mem_reverse, List.mem_map] at hp
    obtain ⟨q, hq, rfl⟩ := hp
    exact isFinite_neg (h q hq)

theorem Bounded.mirror (h : s.Bounded) : s.mirror.Bounded where
  finite := by
    rw [parameters_mirror]
    exact fun p hp => isFinite_of_mem_mirrored h.finite hp
  tame := by
    cases s with
    | triangle t =>
      simp only [Tame, Shape.mirror, Triangle.mirror, Binary64.neg_sub_neg]
      exact h.tame.symm
    | trapezoid t =>
      simp only [Tame, Shape.mirror, Trapezoid.mirror, Binary64.neg_sub_neg]
      exact h.tame.symm
    | gaussian g => exact ⟨(isNaN_neg g.mu).trans h.tame.1, h.tame.2⟩

theorem degreeBy_unit (h : s.Bounded) (hexp : IsExponential exponential) (hx : x.isNaN = false) :
    0 ≤ s.degreeBy exponential x ∧ s.degreeBy exponential x ≤ 1 := by
  cases s with
  | triangle t => exact (t.degreeAt_cases hx).1 (not_overflowed h.tame.1 h.tame.2)
  | trapezoid t => exact (t.degreeAt_cases hx).1 (not_overflowed h.tame.1 h.tame.2)
  | gaussian g => exact hexp.unit (g.exponent_nonpos h.gaussian.1 h.gaussian.2 hx)

theorem degreeBy_peak (h : s.Bounded) (hexp : IsExponential exponential) (hfirst : s.peak.1 ≤ x)
    (hlast : x ≤ s.peak.2) : s.degreeBy exponential x = 1 := by
  cases s with
  | triangle t =>
    rw [degreeBy, ← t.degreeAt_toTrapezoid]
    exact Trapezoid.degreeAt_of_level hfirst hlast
  | trapezoid t => exact Trapezoid.degreeAt_of_level hfirst hlast
  | gaussian g => exact hexp.eq_one (g.exponent_mu h.gaussian.1 h.gaussian.2 hfirst hlast)

theorem degreeBy_le_degreeBy (h : s.Bounded) (hexp : IsExponential exponential) (hxy : x ≤ y)
    (hy : y ≤ s.peak.2) : s.degreeBy exponential x ≤ s.degreeBy exponential y := by
  cases s with
  | triangle t =>
    rw [degreeBy, degreeBy, ← t.degreeAt_toTrapezoid, ← t.degreeAt_toTrapezoid]
    exact Trapezoid.degreeAt_le_degreeAt h.tame.1 h.tame.2 hxy hy
  | trapezoid t => exact Trapezoid.degreeAt_le_degreeAt h.tame.1 h.tame.2 hxy hy
  | gaussian g =>
    apply hexp.mono (g.exponent_le_exponent h.gaussian.1 h.gaussian.2 hxy hy)
    exact g.exponent_nonpos h.gaussian.1 h.gaussian.2 (isNaN_right_of_le hxy)

theorem degreeBy_outside (houtside : s.Outside x) (hpeak : ¬ (s.peak.1 ≤ x ∧ x ≤ s.peak.2)) :
    s.degreeBy exponential x = 0 := by
  cases s with
  | triangle t =>
    rw [degreeBy, ← t.degreeAt_toTrapezoid]
    exact Trapezoid.degreeAt_of_outside houtside hpeak
  | trapezoid t => exact Trapezoid.degreeAt_of_outside houtside hpeak
  | gaussian g => exact houtside.elim

theorem peak_mirror (s : Shape) : s.mirror.peak = (-s.peak.2, -s.peak.1) := by
  cases s <;> rfl

theorem unimodal_degreeBy (h : s.Bounded) (hexp : IsExponential exponential) :
    s.Unimodal (s.degreeBy exponential) where
  unit := degreeBy_unit h hexp
  top := degreeBy_peak h hexp
  rising := degreeBy_le_degreeBy h hexp
  falling := by
    intro x y hx hxy
    rw [← s.degreeBy_mirror exponential x, ← s.degreeBy_mirror exponential y]
    apply degreeBy_le_degreeBy h.mirror hexp (Binary64.neg_le_neg_iff.mpr hxy)
    rw [peak_mirror]
    exact Binary64.neg_le_neg_iff.mpr hx
  outside := degreeBy_outside

/-- **Unimodality.** With finite parameters whose differences do not overflow, the degree lies
between zero and one, is one on the peak, rises before it, falls past it, and is zero outside of the
ramps. This holds on bell curves for every exponential function that is monotone up to zero, one at
zero and between zero and one below it; the one in use is of that kind. So calls succeed at all
numbers. -/
theorem unimodal_degree (h : s.Bounded) :
    (∀ exponential, IsExponential exponential →
      s.Unimodal (s.degreeBy exponential) ∧
        ∀ x, x.isNaN = false → ∃ d, Degree.ofNumber (s.degreeBy exponential x) = .ok d) ∧
      IsExponential exp ∧
      ∀ x, s.degree (.float x) = .ok (s.degreeBy exp x) ∧
        s.call (.float x) = Degree.ofNumber (s.degreeBy exp x) := by
  refine ⟨fun exponential hexp => ⟨unimodal_degreeBy h hexp, fun x hx => ?_⟩, isExponential_exp,
    fun x => ⟨?_, ?_⟩⟩
  · obtain ⟨hnonneg, hle⟩ := degreeBy_unit h hexp hx
    exact ⟨⟨_, hnonneg, hle⟩, Degree.ofNumber_eq_ok_iff.mpr rfl⟩
  · rw [degree_float, degreeBy_exp]
  · rw [call, degree_float, degreeBy_exp]

/-- A triangle without a rising ramp is one at its first corner and zero before it. -/
theorem unimodal_degree_without_rising_ramp :
    ∃ t : Triangle, t.parameters = [0, 0, 1] ∧ (triangle t).Bounded ∧
      (triangle t).degree (.float 0) = .ok 1 ∧ (triangle t).degree (.float (-1)) = .ok 0 ∧
      ∃ d, (triangle t).call (.float (infinite true)) = .ok d := by
  let t : Triangle := ⟨0, 0, 1, Binary64.zero_le_zero, Binary64.zero_le_one⟩
  have htame : (triangle t).Tame := ⟨by decide +kernel, by decide +kernel⟩
  have hfinite : ∀ p ∈ [0, 0, 1], Binary64.isFinite p = true := by
    simp only [List.forall_mem_cons, isFinite_zero, isFinite_one, List.not_mem_nil,
      false_implies, implies_true, and_self]
  have hbounded : (triangle t).Bounded := ⟨hfinite, htame⟩
  obtain ⟨hdegree, hexp, hfloat⟩ := unimodal_degree hbounded
  obtain ⟨hunimodal, hcall⟩ := hdegree exp hexp
  have hbefore : (triangle t).Outside (-1) := .inl (by decide +kernel)
  have hnot : ¬ (0 : Binary64) ≤ -1 := by decide +kernel
  refine ⟨t, rfl, hbounded, ?_, ?_, ?_⟩
  · rw [(hfloat 0).1, hunimodal.top Binary64.zero_le_zero Binary64.zero_le_zero]
  · rw [(hfloat (-1)).1, hunimodal.outside hbefore fun h => hnot h.1]
  · rw [(hfloat (infinite true)).2]
    exact hcall (infinite true) rfl

end Shape

end FuzzyAlgebra

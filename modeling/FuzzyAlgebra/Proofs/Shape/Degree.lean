import FuzzyAlgebra.Proofs.Binary64.Exp
import FuzzyAlgebra.Proofs.Value.Float
import FuzzyAlgebra.Shape

/-!
# Degrees of shapes at floating-point numbers

At a floating-point number the degree of a shape is again such a number. On a ramp it is the quotient
of a part of the ramp by the whole, so it lies between zero and one, unless the part has overflowed:
then so has the whole, and their quotient is NaN. On a bell curve it is the exponential of a number
that is not positive, unless that number is NaN.
-/

namespace FuzzyAlgebra

open Binary64

variable {a b c d x y : Binary64}

/-! ### Ramps -/

/-- The number that a part of a ramp is divided by. -/
def rampDivisor (low high : Binary64) : Binary64 :=
  if high - low < epsilon then epsilon else high - low

theorem ramp_float (x y low high : Binary64) :
    ramp (.float x) (.float y) (rampWidth low high) = .ok ((x - y) / rampDivisor low high) := by
  rw [ramp, Value.slope, Value.sub_float, rampWidth, rampDivisor]
  split <;> rfl

theorem zero_lt_epsilon : 0 < epsilon := by decide +kernel

theorem rampDivisor_bounds {part : Binary64} (hle : part ≤ b - a) :
    0 < rampDivisor a b ∧ part ≤ rampDivisor a b := by
  unfold rampDivisor
  split
  · rename_i hnarrow
    exact ⟨zero_lt_epsilon, Binary64.le_trans hle (Binary64.le_of_lt hnarrow)⟩
  · rename_i hwide
    have hepsilon : epsilon ≤ b - a :=
      Binary64.le_of_not_lt (isNaN_right_of_le hle) (by decide +kernel) hwide
    exact ⟨Binary64.lt_of_lt_of_le zero_lt_epsilon hepsilon, hle⟩

/-- A part of a ramp over the whole. -/
theorem part_cases {part : Binary64} (hpart : 0 ≤ part) (hle : part ≤ b - a) :
    (part.isFinite = true → 0 ≤ part / rampDivisor a b ∧ part / rampDivisor a b ≤ 1) ∧
      (part.isFinite = false → part / rampDivisor a b = nan) := by
  obtain ⟨hpos, hdivisor⟩ := rampDivisor_bounds hle
  exact ⟨div_unit hpart hdivisor hpos, div_eq_nan hpart hdivisor⟩

theorem zero_le_sub (h : a < b) : 0 ≤ b - a :=
  Binary64.sub_nonneg (Binary64.le_of_lt h) (isNaN_sub_of_lt h)

theorem rising_part_le (hax : a < x) (hxb : x < b) : x - a ≤ b - a :=
  Binary64.sub_le_sub (Binary64.le_of_lt hxb) (Binary64.le_refl (isNaN_left_of_lt hax))
    (isNaN_sub_of_lt hax) (isNaN_sub_of_lt (Binary64.lt_of_lt_of_le hax (Binary64.le_of_lt hxb)))

theorem falling_part_le (hcx : c < x) (hxd : x < d) : d - x ≤ d - c :=
  Binary64.sub_le_sub (Binary64.le_refl (isNaN_right_of_lt hxd)) (Binary64.le_of_lt hcx)
    (isNaN_sub_of_lt hxd) (isNaN_sub_of_lt (Binary64.lt_of_lt_of_le hcx (Binary64.le_of_lt hxd)))

/-- The number lies on one of two ramps, and the part of the ramp up to it has overflowed. -/
def Overflowed (a b c d x : Binary64) : Prop :=
  (a < x ∧ x < b ∧ (x - a).isFinite = false) ∨ (c < x ∧ x < d ∧ (d - x).isFinite = false)

theorem not_overflowed (hrising : (b - a).isFinite = true) (hfalling : (d - c).isFinite = true) :
    ¬ Overflowed a b c d x := by
  rintro (⟨hax, hxb, hpart⟩ | ⟨hcx, hxd, hpart⟩)
  · rw [isFinite_of_le (zero_le_sub hax) (rising_part_le hax hxb) hrising] at hpart
    cases hpart
  · rw [isFinite_of_le (zero_le_sub hxd) (falling_part_le hcx hxd) hfalling] at hpart
    cases hpart

/-- Two ramps, the falling one after the rising one, and one or zero beside them. -/
theorem ramps_cases (hbc : b ≤ c) (hrising : a < x → x < b → y = (x - a) / rampDivisor a b)
    (hfalling : c < x → x < d → y = (d - x) / rampDivisor c d)
    (hflat : ¬ (a < x ∧ x < b) → ¬ (c < x ∧ x < d) → y = 1 ∨ y = 0) :
    (¬ Overflowed a b c d x → 0 ≤ y ∧ y ≤ 1) ∧ (Overflowed a b c d x → y = nan) := by
  by_cases hrise : a < x ∧ x < b
  · obtain ⟨hax, hxb⟩ := hrise
    obtain ⟨hunit, hnan⟩ := part_cases (zero_le_sub hax) (rising_part_le hax hxb)
    -- on the rising ramp the number lies before the falling one
    have hoverflowed : Overflowed a b c d x ↔ (x - a).isFinite = false := by
      have hxc : ¬ c < x :=
        Binary64.not_lt_of_le (Binary64.le_of_lt (Binary64.lt_of_lt_of_le hxb hbc))
      simp [Overflowed, hax, hxb, hxc]
    rw [hoverflowed, Bool.not_eq_false, hrising hax hxb]
    exact ⟨hunit, hnan⟩
  · by_cases hfall : c < x ∧ x < d
    · obtain ⟨hcx, hxd⟩ := hfall
      obtain ⟨hunit, hnan⟩ := part_cases (zero_le_sub hxd) (falling_part_le hcx hxd)
      have hoverflowed : Overflowed a b c d x ↔ (d - x).isFinite = false := by
        have hbx : ¬ x < b :=
          Binary64.not_lt_of_le (Binary64.le_of_lt (Binary64.lt_of_le_of_lt hbc hcx))
        simp [Overflowed, hbx, hcx, hxd]
      rw [hoverflowed, Bool.not_eq_false, hfalling hcx hxd]
      exact ⟨hunit, hnan⟩
    · have hoverflowed : ¬ Overflowed a b c d x := by
        rintro (⟨hax, hxb, -⟩ | ⟨hcx, hxd, -⟩)
        · exact hrise ⟨hax, hxb⟩
        · exact hfall ⟨hcx, hxd⟩
      refine ⟨fun _ => ?_, fun h => absurd h hoverflowed⟩
      rcases hflat hrise hfall with hy | hy
      · rw [hy]
        exact ⟨Binary64.zero_le_one, Binary64.one_le_one⟩
      · rw [hy]
        exact ⟨Binary64.zero_le_zero, Binary64.zero_le_one⟩

/-! ### Triangles -/

namespace Triangle

def degreeAt (t : Triangle) (x : Binary64) : Binary64 :=
  if x.isNaN then nan
  else if x.eqv t.b then 1
  else if x ≤ t.a ∨ t.c ≤ x then 0
  else if x < t.b then (x - t.a) / rampDivisor t.a t.b
  else (t.c - x) / rampDivisor t.b t.c

theorem degree_float (t : Triangle) (x : Binary64) : t.degree (.float x) = .ok (t.degreeAt x) := by
  have hnan : (Value.float x).isNaN = .ok x.isNaN := rfl
  simp only [degree, hnan, Value.eqNumber_float, Value.le_float, Value.lt_float, ramp_float, bind,
    Except.bind, Bool.or_eq_true, decide_eq_true_eq, degreeAt]
  split_ifs <;> rfl

variable {t : Triangle}

theorem degreeAt_rising (hax : t.a < x) (hxb : x < t.b) :
    t.degreeAt x = (x - t.a) / rampDivisor t.a t.b := by
  have hxc : x < t.c := Binary64.lt_of_lt_of_le hxb t.falling
  have houtside : ¬ (x ≤ t.a ∨ t.c ≤ x) :=
    not_or.mpr ⟨Binary64.not_le_of_lt hax, Binary64.not_le_of_lt hxc⟩
  rw [degreeAt, isNaN_left_of_lt hxb, if_neg Bool.false_ne_true, if_neg (not_eqv_of_lt hxb),
    if_neg houtside, if_pos hxb]

theorem degreeAt_falling (hbx : t.b < x) (hxc : x < t.c) :
    t.degreeAt x = (t.c - x) / rampDivisor t.b t.c := by
  have hax : t.a < x := Binary64.lt_of_le_of_lt t.rising hbx
  have houtside : ¬ (x ≤ t.a ∨ t.c ≤ x) :=
    not_or.mpr ⟨Binary64.not_le_of_lt hax, Binary64.not_le_of_lt hxc⟩
  have hpeak : ¬ x.eqv t.b = true := by
    rw [eqv_comm]
    exact not_eqv_of_lt hbx
  rw [degreeAt, isNaN_left_of_lt hxc, if_neg Bool.false_ne_true, if_neg hpeak, if_neg houtside,
    if_neg (Binary64.not_lt_of_le (Binary64.le_of_lt hbx))]

/-- Off the ramps the degree is one or zero. -/
theorem degreeAt_of_not_ramp (hx : x.isNaN = false) (hrising : ¬ (t.a < x ∧ x < t.b))
    (hfalling : ¬ (t.b < x ∧ x < t.c)) : t.degreeAt x = 1 ∨ t.degreeAt x = 0 := by
  rw [degreeAt, hx, if_neg Bool.false_ne_true]
  split
  · exact .inl rfl
  · rename_i hpeak
    -- no comparison meets NaN here, so the ranks decide by linear arithmetic
    obtain ⟨l, m, hl, hm, hlm⟩ := exists_rank_of_le t.rising
    obtain ⟨m', r, hm', hr, hmr⟩ := exists_rank_of_le t.falling
    cases hm.symm.trans hm'
    obtain ⟨n, hn⟩ := exists_rank hx
    rw [eqv_iff_of_rank hn hm] at hpeak
    rw [lt_iff_of_rank hl hn, lt_iff_of_rank hn hm] at hrising
    rw [lt_iff_of_rank hm hn, lt_iff_of_rank hn hr] at hfalling
    rw [if_pos (by rw [le_iff_of_rank hn hl, le_iff_of_rank hr hn]; omega)]
    exact .inr rfl

theorem degreeAt_cases (t : Triangle) (hx : x.isNaN = false) :
    (¬ Overflowed t.a t.b t.b t.c x → 0 ≤ t.degreeAt x ∧ t.degreeAt x ≤ 1) ∧
      (Overflowed t.a t.b t.b t.c x → t.degreeAt x = nan) :=
  ramps_cases (Binary64.le_refl (isNaN_right_of_le t.rising)) degreeAt_rising degreeAt_falling
    (degreeAt_of_not_ramp hx)

end Triangle

/-! ### Trapezoids -/

namespace Trapezoid

def degreeAt (t : Trapezoid) (x : Binary64) : Binary64 :=
  if x.isNaN then nan
  else if t.b ≤ x ∧ x ≤ t.c then 1
  else if x ≤ t.a ∨ t.d ≤ x then 0
  else if x < t.b then (x - t.a) / rampDivisor t.a t.b
  else (t.d - x) / rampDivisor t.c t.d

theorem degree_float (t : Trapezoid) (x : Binary64) :
    t.degree (.float x) = .ok (t.degreeAt x) := by
  have hnan : (Value.float x).isNaN = .ok x.isNaN := rfl
  simp only [degree, hnan, Value.le_float, Value.lt_float, ramp_float, bind, Except.bind,
    Bool.and_eq_true, Bool.or_eq_true, decide_eq_true_eq, degreeAt]
  split_ifs <;> rfl

variable {t : Trapezoid}

theorem degreeAt_rising (hax : t.a < x) (hxb : x < t.b) :
    t.degreeAt x = (x - t.a) / rampDivisor t.a t.b := by
  have hxd : x < t.d :=
    Binary64.lt_of_lt_of_le hxb (Binary64.le_trans t.level t.falling)
  have houtside : ¬ (x ≤ t.a ∨ t.d ≤ x) :=
    not_or.mpr ⟨Binary64.not_le_of_lt hax, Binary64.not_le_of_lt hxd⟩
  rw [degreeAt, isNaN_left_of_lt hxb, if_neg Bool.false_ne_true,
    if_neg (not_and_of_not_left _ (Binary64.not_le_of_lt hxb)), if_neg houtside, if_pos hxb]

theorem degreeAt_falling (hcx : t.c < x) (hxd : x < t.d) :
    t.degreeAt x = (t.d - x) / rampDivisor t.c t.d := by
  have hbx : t.b < x := Binary64.lt_of_le_of_lt t.level hcx
  have hax : t.a < x := Binary64.lt_of_le_of_lt t.rising hbx
  have houtside : ¬ (x ≤ t.a ∨ t.d ≤ x) :=
    not_or.mpr ⟨Binary64.not_le_of_lt hax, Binary64.not_le_of_lt hxd⟩
  rw [degreeAt, isNaN_left_of_lt hxd, if_neg Bool.false_ne_true,
    if_neg (not_and_of_not_right _ (Binary64.not_le_of_lt hcx)), if_neg houtside,
    if_neg (Binary64.not_lt_of_le (Binary64.le_of_lt hbx))]

/-- Off the ramps the degree is one or zero. -/
theorem degreeAt_of_not_ramp (hx : x.isNaN = false) (hrising : ¬ (t.a < x ∧ x < t.b))
    (hfalling : ¬ (t.c < x ∧ x < t.d)) : t.degreeAt x = 1 ∨ t.degreeAt x = 0 := by
  rw [degreeAt, hx, if_neg Bool.false_ne_true]
  split
  · exact .inl rfl
  · rename_i hlevel
    obtain ⟨l, m, hl, hm, hlm⟩ := exists_rank_of_le t.rising
    obtain ⟨p, r, hp, hr, hpr⟩ := exists_rank_of_le t.falling
    obtain ⟨n, hn⟩ := exists_rank hx
    rw [le_iff_of_rank hm hn, le_iff_of_rank hn hp] at hlevel
    rw [lt_iff_of_rank hl hn, lt_iff_of_rank hn hm] at hrising
    rw [lt_iff_of_rank hp hn, lt_iff_of_rank hn hr] at hfalling
    rw [if_pos (by rw [le_iff_of_rank hn hl, le_iff_of_rank hr hn]; omega)]
    exact .inr rfl

theorem degreeAt_cases (t : Trapezoid) (hx : x.isNaN = false) :
    (¬ Overflowed t.a t.b t.c t.d x → 0 ≤ t.degreeAt x ∧ t.degreeAt x ≤ 1) ∧
      (Overflowed t.a t.b t.c t.d x → t.degreeAt x = nan) :=
  ramps_cases t.level degreeAt_rising degreeAt_falling (degreeAt_of_not_ramp hx)

end Trapezoid

/-- The trapezoid whose plateau is the peak of the triangle. -/
def Triangle.toTrapezoid (t : Triangle) : Trapezoid :=
  ⟨t.a, t.b, t.b, t.c, t.rising, Binary64.le_refl (isNaN_right_of_le t.rising), t.falling⟩

theorem Triangle.degreeAt_toTrapezoid (t : Triangle) (x : Binary64) :
    t.toTrapezoid.degreeAt x = t.degreeAt x :=
  if_congr Iff.rfl rfl (if_congr eqv_iff_le.symm rfl rfl)

/-! ### Bell curves -/

namespace Gaussian

/-- The distance from the middle, counted in widths. -/
def deviation (g : Gaussian) (x : Binary64) : Binary64 := (x - g.mu) / g.sigma

def degreeAt (g : Gaussian) (x : Binary64) : Binary64 :=
  exp (-ofQuotient 1 2 * g.deviation x * g.deviation x)

theorem degree_float (g : Gaussian) (x : Binary64) : g.degree (.float x) = .ok (g.degreeAt x) := rfl

/-- What the degree is the exponential of. -/
def exponent (g : Gaussian) (x : Binary64) : Binary64 :=
  -ofQuotient 1 2 * g.deviation x * g.deviation x

/-- The middle or the width is NaN, or the width is infinite and so is the distance to the
middle. -/
def IndefiniteAt (g : Gaussian) (x : Binary64) : Prop :=
  g.mu.isNaN = true ∨ g.sigma.isNaN = true ∨
    ((x - g.mu).isFinite = false ∧ g.sigma.isFinite = false)

theorem isNaN_deviation_iff (g : Gaussian) (hx : x.isFinite = true) :
    (g.deviation x).isNaN = true ↔ g.IndefiniteAt x := by
  rw [deviation, isNaN_div_iff g.wide, isNaN_sub_iff hx, IndefiniteAt]

theorem exists_negative_half :
    ∃ n hn, -ofQuotient 1 2 = finite true n hn ∧ n ≠ 0 ∧ n ≤ unitsPerOne :=
  ⟨2 ^ 1073, by decide +kernel, by decide +kernel, by decide +kernel, by decide +kernel⟩

theorem exponent_cases (g : Gaussian) (hx : x.isFinite = true) :
    (¬ g.IndefiniteAt x → g.exponent x ≤ 0) ∧ (g.IndefiniteAt x → g.exponent x = nan) := by
  rw [← isNaN_deviation_iff g hx, Bool.not_eq_true, exponent]
  constructor
  · intro hnumber
    obtain ⟨n, hn, hhalf, hpos, -⟩ := exists_negative_half
    rw [hhalf]
    exact mul_mul_self_nonpos hn hpos hnumber
  · intro hnan
    rw [eq_nan_of_isNaN hnan, mul_nan]

end Gaussian

/-! ### All shapes -/

namespace Shape

def degreeAt : Shape → Binary64 → Binary64
  | triangle t => t.degreeAt
  | trapezoid t => t.degreeAt
  | gaussian g => g.degreeAt

theorem degree_float (s : Shape) (x : Binary64) : s.degree (.float x) = .ok (s.degreeAt x) := by
  cases s with
  | triangle t => exact t.degree_float x
  | trapezoid t => exact t.degree_float x
  | gaussian g => exact g.degree_float x

/-- The degree, if `exponential` is the exponential function that bell curves use. -/
def degreeBy (exponential : Binary64 → Binary64) : Shape → Binary64 → Binary64
  | triangle t, x => t.degreeAt x
  | trapezoid t, x => t.degreeAt x
  | gaussian g, x => exponential (g.exponent x)

theorem degreeBy_exp (s : Shape) (x : Binary64) : s.degreeBy exp x = s.degreeAt x := by
  cases s <;> rfl

/-- The shape has no definite degree at the number. -/
def IndefiniteAt : Shape → Binary64 → Prop
  | triangle t, x => Overflowed t.a t.b t.b t.c x
  | trapezoid t, x => Overflowed t.a t.b t.c t.d x
  | gaussian g, x => g.IndefiniteAt x

/-- The ramps are finitely wide; so is a bell curve, and its middle is a number. -/
def Tame : Shape → Prop
  | triangle t => (t.b - t.a).isFinite = true ∧ (t.c - t.b).isFinite = true
  | trapezoid t => (t.b - t.a).isFinite = true ∧ (t.d - t.c).isFinite = true
  | gaussian g => g.mu.isNaN = false ∧ g.sigma.isFinite = true

theorem not_indefiniteAt_of_tame {s : Shape} (h : s.Tame) (x : Binary64) : ¬ s.IndefiniteAt x := by
  cases s with
  | triangle t => exact not_overflowed h.1 h.2
  | trapezoid t => exact not_overflowed h.1 h.2
  | gaussian g =>
    obtain ⟨hmu, hsigma⟩ := h
    rintro (hnan | hnan | ⟨-, hinf⟩)
    · rw [hmu] at hnan
      cases hnan
    · rw [isNaN_of_isFinite hsigma] at hnan
      cases hnan
    · rw [hsigma] at hinf
      cases hinf

theorem degreeBy_cases {exponential : Binary64 → Binary64} (hexp : IsExponential exponential)
    (hnan : exponential nan = nan) (s : Shape) (hx : x.isFinite = true) :
    (¬ s.IndefiniteAt x → 0 ≤ s.degreeBy exponential x ∧ s.degreeBy exponential x ≤ 1) ∧
      (s.IndefiniteAt x → s.degreeBy exponential x = nan) := by
  cases s with
  | triangle t => exact t.degreeAt_cases (isNaN_of_isFinite hx)
  | trapezoid t => exact t.degreeAt_cases (isNaN_of_isFinite hx)
  | gaussian g =>
    obtain ⟨hnonpos, hindefinite⟩ := g.exponent_cases hx
    refine ⟨fun h => hexp.unit (hnonpos h), fun h => ?_⟩
    rw [degreeBy, hindefinite h, hnan]

theorem degreeAt_cases (s : Shape) (hx : x.isFinite = true) :
    (¬ s.IndefiniteAt x → 0 ≤ s.degreeAt x ∧ s.degreeAt x ≤ 1) ∧
      (s.IndefiniteAt x → s.degreeAt x = nan) := by
  rw [← s.degreeBy_exp]
  exact degreeBy_cases isExponential_exp rfl s hx

end Shape

end FuzzyAlgebra

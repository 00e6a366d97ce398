import FuzzyAlgebra.Proofs.Binary64.Resolution
import FuzzyAlgebra.Proofs.Shape.Degree

/-!
# The formula of the ramps

The degree on a ramp is the part of the ramp up to the number, over the width of the ramp, provided
that the width is at least the machine epsilon. The epsilon stands in for every smaller width, not
only for none: numbers near zero lie much closer together, so ramps narrower than the epsilon have
numbers on them, and the degrees there are less than the formula gives.
-/

namespace FuzzyAlgebra

open Binary64

namespace Shape

/-- The number lies on a ramp of the shape: `part` is the distance to the foot of the ramp, and
`width` that from the foot to the top. -/
inductive OnRamp : Shape → Binary64 → (part width : Binary64) → Prop
  | triangleRising (t : Triangle) {x} (hax : t.a < x) (hxb : x < t.b) :
    OnRamp (triangle t) x (x - t.a) (t.b - t.a)
  | triangleFalling (t : Triangle) {x} (hbx : t.b < x) (hxc : x < t.c) :
    OnRamp (triangle t) x (t.c - x) (t.c - t.b)
  | trapezoidRising (t : Trapezoid) {x} (hax : t.a < x) (hxb : x < t.b) :
    OnRamp (trapezoid t) x (x - t.a) (t.b - t.a)
  | trapezoidFalling (t : Trapezoid) {x} (hcx : t.c < x) (hxd : x < t.d) :
    OnRamp (trapezoid t) x (t.d - x) (t.d - t.c)

variable {s : Shape} {x part width : Binary64}

theorem OnRamp.part_pos (h : s.OnRamp x part width) : 0 < part := by
  cases h with
  | triangleRising t hax hxb => exact Binary64.sub_pos hax
  | triangleFalling t hbx hxc => exact Binary64.sub_pos hxc
  | trapezoidRising t hax hxb => exact Binary64.sub_pos hax
  | trapezoidFalling t hcx hxd => exact Binary64.sub_pos hxd

theorem OnRamp.part_le (h : s.OnRamp x part width) : part ≤ width := by
  cases h with
  | triangleRising t hax hxb => exact rising_part_le hax hxb
  | triangleFalling t hbx hxc => exact falling_part_le hbx hxc
  | trapezoidRising t hax hxb => exact rising_part_le hax hxb
  | trapezoidFalling t hcx hxd => exact falling_part_le hcx hxd

theorem OnRamp.degreeAt_eq (h : s.OnRamp x part width) :
    s.degreeAt x = part / if width < epsilon then epsilon else width := by
  cases h with
  | triangleRising t hax hxb => exact Triangle.degreeAt_rising hax hxb
  | triangleFalling t hbx hxc => exact Triangle.degreeAt_falling hbx hxc
  | trapezoidRising t hax hxb => exact Trapezoid.degreeAt_rising hax hxb
  | trapezoidFalling t hcx hxd => exact Trapezoid.degreeAt_falling hcx hxd

/-- **The formula of the ramps.** The degree on a ramp is the quotient of the part by the width if
and only if the width is at least the epsilon. On narrower ramps it is the quotient by the epsilon,
which is less. -/
theorem degree_on_ramp (h : s.OnRamp x part width) :
    (s.degree (.float x) = .ok (part / width) ↔ epsilon ≤ width) ∧
      (width < epsilon →
        s.degree (.float x) = .ok (part / epsilon) ∧ part / epsilon < part / width) := by
  have hnarrow (hlt : width < epsilon) :
      s.degree (.float x) = .ok (part / epsilon) ∧ part / epsilon < part / width := by
    rw [degree_float, h.degreeAt_eq, if_pos hlt]
    exact ⟨rfl, div_epsilon_lt_div h.part_pos h.part_le hlt⟩
  refine ⟨⟨fun hexact => ?_, fun hwide => ?_⟩, hnarrow⟩
  · apply Binary64.le_of_not_lt (isNaN_right_of_le h.part_le) (isNaN_of_isFinite isFinite_epsilon)
    intro hlt
    obtain ⟨hdegree, hless⟩ := hnarrow hlt
    rw [Except.ok.inj (hdegree.symm.trans hexact)] at hless
    exact Binary64.not_lt_of_le (Binary64.le_refl (isNaN_left_of_lt hless)) hless
  · rw [degree_float, h.degreeAt_eq, if_neg (Binary64.not_lt_of_le hwide)]

theorem exists_triangle {a b c : Binary64} (hab : a ≤ b) (hbc : b ≤ c) :
    ∃ t : Triangle, t.a = a ∧ t.b = b ∧ t.c = c :=
  ⟨⟨a, b, c, hab, hbc⟩, rfl, rfl, rfl⟩

theorem halfway_up_narrow :
    0 < ofQuotient 1 (2 ^ 61) ∧ ofQuotient 1 (2 ^ 61) < ofQuotient 1 (2 ^ 60) ∧
      ofQuotient 1 (2 ^ 60) < 1 := by
  decide +kernel

/-- A triangle whose rising ramp is `2 ^ (-60)` wide, and the middle of that ramp. -/
theorem exists_narrowTriangle :
    ∃ t : Triangle, (t.a = 0 ∧ t.b = ofQuotient 1 (2 ^ 60) ∧ t.c = 1) ∧
      t.a < ofQuotient 1 (2 ^ 61) ∧ ofQuotient 1 (2 ^ 61) < t.b := by
  obtain ⟨hzero, hhalf, hone⟩ := halfway_up_narrow
  obtain ⟨t, ha, hb, hc⟩ := exists_triangle
    (Binary64.le_trans (Binary64.le_of_lt hzero) (Binary64.le_of_lt hhalf)) (Binary64.le_of_lt hone)
  exact ⟨t, ⟨ha, hb, hc⟩, ha.symm ▸ hzero, hb.symm ▸ hhalf⟩

/-- One ramp of the triangle is narrower than the epsilon, and the other is almost one wide. -/
theorem degree_on_ramp_narrow_and_wide :
    ∃ t : Triangle, (t.a = 0 ∧ t.b = ofQuotient 1 (2 ^ 60) ∧ t.c = 1) ∧
      (triangle t).degree (.float (ofQuotient 1 (2 ^ 61))) =
        .ok ((ofQuotient 1 (2 ^ 61) - t.a) / epsilon) ∧
      (triangle t).degree (.float (ofQuotient 1 2)) =
        .ok ((t.c - ofQuotient 1 2) / (t.c - t.b)) := by
  obtain ⟨t, ⟨ha, hb, hc⟩, hax, hxb⟩ := exists_narrowTriangle
  have hnarrow : t.b - t.a < epsilon := by
    rw [ha, hb]
    decide +kernel
  have hwide : epsilon ≤ t.c - t.b ∧ t.b < ofQuotient 1 2 ∧ ofQuotient 1 2 < t.c := by
    rw [hb, hc]
    decide +kernel
  obtain ⟨hwidth, hbx, hxc⟩ := hwide
  exact ⟨t, ⟨ha, hb, hc⟩, ((degree_on_ramp (.triangleRising t hax hxb)).2 hnarrow).1,
    (degree_on_ramp (.triangleFalling t hbx hxc)).1.mpr hwidth⟩

/-- Halfway up a ramp that is `2 ^ (-60)` wide the degree is not one half, but `2 ^ (-9)`. -/
theorem degree_on_narrow_ramp :
    ∃ (t : Triangle) (x : Binary64), (t.a = 0 ∧ t.b = ofQuotient 1 (2 ^ 60) ∧ t.c = 1) ∧
      t.a < x ∧ x < t.b ∧ (x - t.a) / (t.b - t.a) = ofQuotient 1 2 ∧
      (triangle t).degree (.float x) = .ok (ofQuotient 1 (2 ^ 9)) := by
  obtain ⟨t, hcorners, hax, hxb⟩ := exists_narrowTriangle
  refine ⟨t, ofQuotient 1 (2 ^ 61), hcorners, hax, hxb, ?_, ?_⟩
  · rw [hcorners.1, hcorners.2.1]
    decide +kernel
  · rw [degree_float, degreeAt, Triangle.degreeAt_rising hax hxb, hcorners.1, hcorners.2.1]
    decide +kernel

end Shape

end FuzzyAlgebra

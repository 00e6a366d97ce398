import FuzzyAlgebra.Proofs.Binary64.Negation
import FuzzyAlgebra.Proofs.Definitions.Load
import FuzzyAlgebra.Proofs.Shape.Degree

/-!
# Mirror images of shapes

A shape that is reflected at zero has the degrees of the shape at the reflected numbers, bit for bit
and NaN included: what was the rising ramp is now the falling one, with the same part and the same
width. The deviation from the middle of a bell curve changes its sign, or is one and the same zero,
and its square stays.
-/

namespace FuzzyAlgebra

open Binary64

variable {x : Binary64}

theorem rampDivisor_neg_neg (low high : Binary64) :
    rampDivisor (-high) (-low) = rampDivisor low high := by
  rw [rampDivisor, rampDivisor, Binary64.neg_sub_neg]

/-! ### Trapezoids and triangles -/

namespace Trapezoid

def mirror (t : Trapezoid) : Trapezoid :=
  ⟨-t.d, -t.c, -t.b, -t.a, Binary64.neg_le_neg_iff.mpr t.falling,
    Binary64.neg_le_neg_iff.mpr t.level, Binary64.neg_le_neg_iff.mpr t.rising⟩

theorem lt_or_lt_of_not_level (t : Trapezoid) (hx : x.isNaN = false)
    (h : ¬ (t.b ≤ x ∧ x ≤ t.c)) : x < t.b ∨ t.c < x := by
  by_cases hbefore : t.b ≤ x
  · exact .inr (Binary64.lt_of_not_le hx (isNaN_right_of_le t.level) fun hle => h ⟨hbefore, hle⟩)
  · exact .inl (Binary64.lt_of_not_le (isNaN_left_of_le t.level) hx hbefore)

theorem degreeAt_mirror (t : Trapezoid) (x : Binary64) :
    t.mirror.degreeAt (-x) = t.degreeAt x := by
  unfold degreeAt
  simp only [mirror, isNaN_neg, Binary64.neg_le_neg_iff, Binary64.neg_lt_neg_iff,
    Binary64.neg_sub_neg, rampDivisor_neg_neg]
  by_cases hlevel : t.b ≤ x ∧ x ≤ t.c
  · rw [if_pos hlevel, if_pos hlevel.symm]
  · refine ite_congr rfl (fun _ => rfl) fun hnan => ?_
    rw [if_neg hlevel, if_neg fun h => hlevel h.symm]
    refine if_congr or_comm rfl ?_
    -- off the plateau the number lies either before or past it
    rcases t.lt_or_lt_of_not_level (Bool.eq_false_iff.mpr hnan) hlevel with hbefore | hpast
    · have hnot : ¬ t.c < x :=
        Binary64.not_lt_of_le (Binary64.le_trans (Binary64.le_of_lt hbefore) t.level)
      rw [if_pos hbefore, if_neg hnot]
    · have hnot : ¬ x < t.b :=
        Binary64.not_lt_of_le (Binary64.le_trans t.level (Binary64.le_of_lt hpast))
      rw [if_pos hpast, if_neg hnot]

end Trapezoid

namespace Triangle

def mirror (t : Triangle) : Triangle :=
  ⟨-t.c, -t.b, -t.a, Binary64.neg_le_neg_iff.mpr t.falling, Binary64.neg_le_neg_iff.mpr t.rising⟩

theorem degreeAt_mirror (t : Triangle) (x : Binary64) : t.mirror.degreeAt (-x) = t.degreeAt x := by
  rw [← degreeAt_toTrapezoid, ← degreeAt_toTrapezoid]
  exact t.toTrapezoid.degreeAt_mirror x

end Triangle

/-! ### Bell curves -/

namespace Gaussian

def mirror (g : Gaussian) : Gaussian := ⟨-g.mu, g.sigma, g.wide⟩

theorem deviation_mirror_cases (g : Gaussian) (x : Binary64) :
    g.mirror.deviation (-x) = -g.deviation x ∨ g.mirror.deviation (-x) = g.deviation x := by
  have hdeviation : g.mirror.deviation (-x) = (g.mu - x) / g.sigma :=
    congrArg (· / g.sigma) (Binary64.neg_sub_neg x g.mu)
  rw [hdeviation, deviation, ← Binary64.neg_div]
  rcases sub_swap_cases x g.mu with hopposite | hzero
  · exact .inl (congrArg (· / g.sigma) hopposite)
  · exact .inr (congrArg (· / g.sigma) hzero)

theorem exponent_mirror (g : Gaussian) (x : Binary64) : g.mirror.exponent (-x) = g.exponent x := by
  unfold exponent
  rcases g.deviation_mirror_cases x with hopposite | hsame
  · rw [hopposite, mul_neg_mul_neg]
  · rw [hsame]

end Gaussian

/-! ### All shapes -/

/-- The parameters of the mirror image, from those of the shape. -/
def ShapeKind.mirrored : ShapeKind → List Binary64 → List Binary64
  | .gaussian, mu :: width => -mu :: width
  | _, corners => (corners.map Neg.neg).reverse

namespace Shape

/-- The shape reflected at zero. -/
def mirror : Shape → Shape
  | triangle t => triangle t.mirror
  | trapezoid t => trapezoid t.mirror
  | gaussian g => gaussian g.mirror

theorem kind_mirror (s : Shape) : s.mirror.kind = s.kind := by
  cases s <;> rfl

theorem parameters_mirror (s : Shape) : s.mirror.parameters = s.kind.mirrored s.parameters := by
  cases s <;> rfl

theorem degreeBy_mirror (exponential : Binary64 → Binary64) (s : Shape) (x : Binary64) :
    s.mirror.degreeBy exponential (-x) = s.degreeBy exponential x := by
  cases s with
  | triangle t => exact t.degreeAt_mirror x
  | trapezoid t => exact t.degreeAt_mirror x
  | gaussian g => exact congrArg exponential (g.exponent_mirror x)

theorem kind_of_ofParameters? {kind : ShapeKind} {numbers : List Binary64} {s : Shape}
    (h : ofParameters? kind numbers = .ok s) : s.kind = kind := by
  unfold ofParameters? at h
  split at h
  · split at h
    · cases h
      rfl
    · cases h
  · split at h
    · cases h
      rfl
    · cases h
  · split at h
    · cases h
    · cases h
      rfl
  · cases h

theorem kind_of_ofValues {kind : ShapeKind} {parameters : Value} {s : Shape}
    (h : (ofValues kind parameters).result = .ok s) : s.kind = kind := by
  unfold ofValues at h
  obtain ⟨values, -, h⟩ := Traced.result_bind_eq_ok_iff.mp h
  split at h
  · obtain ⟨numbers, -, h⟩ := Traced.result_bind_eq_ok_iff.mp h
    cases hmade : ofParameters? kind numbers with
    | ok made =>
      rw [hmade] at h
      cases h
      exact kind_of_ofParameters? hmade
    | error f =>
      rw [hmade] at h
      cases h
  · cases h

/-- **Mirror symmetry.** Whenever parameters are accepted, whatever they are written as, the
mirrored ones are accepted too. The two shapes have the same degree at opposite numbers, also where
it is NaN; on bell curves this is so whichever exponential function they use. -/
theorem exists_mirror_of_ofValues {kind : ShapeKind} {parameters : Value} {s : Shape}
    (h : (ofValues kind parameters).result = .ok s) :
    ∃ m, (ofValues kind (.list ((kind.mirrored s.parameters).map .float))).result = .ok m ∧
      (∀ x, m.degree (.float (-x)) = s.degree (.float x)) ∧
      ∀ exponential x, m.degreeBy exponential (-x) = s.degreeBy exponential x := by
  obtain rfl := kind_of_ofValues h
  refine ⟨s.mirror, ?_, fun x => ?_, fun exponential => s.degreeBy_mirror exponential⟩
  · rw [← parameters_mirror, ← kind_mirror]
    exact s.mirror.result_ofValues_parameters
  · rw [degree_float, degree_float, ← degreeBy_exp, ← degreeBy_exp, degreeBy_mirror]

/-- A ramp without a beginning has no definite part, on either side of the peak. -/
theorem exists_mirror_of_ofValues_without_beginning :
    let corners := [infinite true, 0, 0]
    ∃ s m, (ofValues .triangular (.list (corners.map .float))).result = .ok s ∧
      (ofValues .triangular
        (.list ((ShapeKind.mirrored .triangular corners).map .float))).result = .ok m ∧
      s.degree (.float (-1)) = .ok nan ∧ m.degree (.float (- -1)) = .ok nan := by
  let t : Triangle := ⟨infinite true, 0, 0, infinite_true_le isNaN_zero, Binary64.zero_le_zero⟩
  have hmade := (triangle t).result_ofValues_parameters
  obtain ⟨m, hm, hdegree, -⟩ := exists_mirror_of_ofValues hmade
  have hindefinite : (triangle t).IndefiniteAt (-1) :=
    .inl ⟨by decide +kernel, by decide +kernel, by decide +kernel⟩
  have hnan : (triangle t).degree (.float (-1)) = .ok nan := by
    rw [degree_float, ((triangle t).degreeAt_cases (isFinite_neg isFinite_one)).2 hindefinite]
  exact ⟨triangle t, m, hmade, hm, hnan, (hdegree (-1)).trans hnan⟩

end Shape

end FuzzyAlgebra

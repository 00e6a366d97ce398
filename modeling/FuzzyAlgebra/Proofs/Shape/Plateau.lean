import FuzzyAlgebra.Proofs.Definitions.Load
import FuzzyAlgebra.Proofs.Shape.Degree
import FuzzyAlgebra.Proofs.Value.Real

/-!
# Trapezoids without a plateau

A trapezoid whose plateau is a single number is the triangle with its peak there. The triangle tests
whether a number is equal to the peak, and the trapezoid whether it lies on the plateau; comparisons
are exact, so these tests agree at every real number, however it is written and however large it is.
The ramps are the same, divisors included.
-/

namespace FuzzyAlgebra

open Binary64

variable {x : Value}

theorem Triangle.degree_toTrapezoid (t : Triangle) (hx : x.isReal = true) :
    t.toTrapezoid.degree x = t.degree x := by
  obtain ⟨p, q, hlow, hhigh, hpeak⟩ := Value.exists_le_and_le hx t.b
  rw [Trapezoid.degree, Triangle.degree]
  cases x.isNaN with
  | error m => rfl
  | ok nan =>
    cases nan with
    | true => rfl
    | false =>
      simp only [Triangle.toTrapezoid, hlow, hhigh, bind, Except.bind, hpeak]

namespace Shape

variable {a b c : Binary64} {s : Shape}

theorem result_ofValues_floats (kind : ShapeKind) (numbers : List Binary64) :
    (ofValues kind (.list (numbers.map .float))).result =
      (ofParameters? kind numbers).mapError .failure := by
  rw [← create_label, create_floats]
  cases ofParameters? kind numbers <;> rfl

theorem result_ofValues_floats_eq_ok_iff {kind : ShapeKind} {numbers : List Binary64} :
    (ofValues kind (.list (numbers.map .float))).result = .ok s ↔
      ofParameters? kind numbers = .ok s := by
  rw [result_ofValues_floats]
  cases ofParameters? kind numbers <;> simp [Except.mapError]

theorem ofParameters?_triangular_eq_ok_iff :
    ofParameters? .triangular [a, b, c] = .ok s ↔
      ∃ hab hbc, s = triangle ⟨a, b, c, hab, hbc⟩ := by
  rw [ofParameters?]
  split <;> simp_all [eq_comm]

/-- Four corners, the middle ones equal, are in order if and only if the three corners are. -/
theorem ofParameters?_trapezoidal_eq_ok_iff :
    ofParameters? .trapezoidal [a, b, b, c] = .ok s ↔
      ∃ hab hbc, s = trapezoid (Triangle.toTrapezoid ⟨a, b, c, hab, hbc⟩) := by
  have hlevel (hab : a ≤ b) : b ≤ b := Binary64.le_refl (isNaN_right_of_le hab)
  rw [ofParameters?]
  split
  · rename_i hordered
    simp [hordered.1, hordered.2.2, Triangle.toTrapezoid, eq_comm]
  · rename_i hdisordered
    simp only [reduceCtorEq, false_iff, not_exists]
    intro hab hbc
    exact absurd ⟨hab, hlevel hab, hbc⟩ hdisordered

/-- **A trapezoid without a plateau is a triangle.** Four corners of which the middle two are equal
are accepted if and only if the three corners are. The two shapes then have the same degree at every
real number, or fail with the same mishap. -/
theorem trapezoid_of_empty_plateau (a b c : Binary64) :
    ((∃ s, (ofValues .trapezoidal (.list ([a, b, b, c].map .float))).result = .ok s) ↔
      ∃ t, (ofValues .triangular (.list ([a, b, c].map .float))).result = .ok t) ∧
    ∀ s t, (ofValues .trapezoidal (.list ([a, b, b, c].map .float))).result = .ok s →
      (ofValues .triangular (.list ([a, b, c].map .float))).result = .ok t →
      ∀ x : Value, x.isReal = true → s.degree x = t.degree x ∧ s.call x = t.call x := by
  simp only [result_ofValues_floats_eq_ok_iff, ofParameters?_triangular_eq_ok_iff,
    ofParameters?_trapezoidal_eq_ok_iff]
  constructor
  · constructor
    · rintro ⟨-, hab, hbc, -⟩
      exact ⟨_, hab, hbc, rfl⟩
    · rintro ⟨-, hab, hbc, -⟩
      exact ⟨_, hab, hbc, rfl⟩
  · rintro s t ⟨hab, hbc, rfl⟩ ⟨-, -, rfl⟩ x hx
    have hdegree := Triangle.degree_toTrapezoid ⟨a, b, c, hab, hbc⟩ hx
    exact ⟨hdegree, by rw [call, call, degree, degree, hdegree]⟩

/-- An upright edge at one, a ramp that never ends, and a whole number that no floating-point number
is equal to. -/
theorem trapezoid_of_empty_plateau_upright :
    ∃ s t, (ofValues .trapezoidal (.list ([1, 1, 1, .infinite false].map .float))).result = .ok s ∧
      (ofValues .triangular (.list ([1, 1, .infinite false].map .float))).result = .ok t ∧
      s.degree (.int (2 ^ 53 + 1)) = t.degree (.int (2 ^ 53 + 1)) := by
  obtain ⟨hab, hbc⟩ : (1 : Binary64) ≤ 1 ∧ (1 : Binary64) ≤ .infinite false := by decide +kernel
  have htrapezoid := result_ofValues_floats_eq_ok_iff.mpr
    (ofParameters?_trapezoidal_eq_ok_iff.mpr ⟨hab, hbc, rfl⟩)
  have htriangle := result_ofValues_floats_eq_ok_iff.mpr
    (ofParameters?_triangular_eq_ok_iff.mpr ⟨hab, hbc, rfl⟩)
  exact ⟨_, _, htrapezoid, htriangle,
    ((trapezoid_of_empty_plateau 1 1 (.infinite false)).2 _ _ htrapezoid htriangle _ rfl).1⟩

end Shape

end FuzzyAlgebra

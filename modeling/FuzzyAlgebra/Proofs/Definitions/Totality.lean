import FuzzyAlgebra.FuzzySet.Membership
import FuzzyAlgebra.Proofs.Definitions.RoundTrip
import FuzzyAlgebra.Proofs.Shape.Degree

/-!
# Where defined sets have degrees

A set that is built from a definition answers with a degree at every finite number at which its shape
is definite. At any other finite number the shape gives NaN, which is no degree. The schema does not
tell the two apart: it lets parameters through that are NaN, infinite, or too far from each other.
-/

namespace FuzzyAlgebra

open Binary64

namespace Shape

variable {x : Binary64}

theorem exists_call_of_definite (s : Shape) (hx : x.isFinite = true) (h : ¬ s.IndefiniteAt x) :
    ∃ d, s.call (.float x) = .ok d := by
  have hunit := (s.degreeAt_cases hx).1 h
  have hdegree : Degree.ofNumber? (s.degreeAt x) = some ⟨s.degreeAt x, hunit.1, hunit.2⟩ :=
    Degree.ofNumber?_eq_some_iff.mpr rfl
  refine ⟨⟨s.degreeAt x, hunit.1, hunit.2⟩, ?_⟩
  rw [call, degree_float]
  dsimp only
  rw [Degree.ofNumber, hdegree]

theorem call_of_indefinite (s : Shape) (hx : x.isFinite = true) (h : s.IndefiniteAt x) :
    s.call (.float x) = .error (.failure (.notADegree .nan)) := by
  rw [call, degree_float, (s.degreeAt_cases hx).2 h]
  rfl

end Shape

namespace Definitions

variable {τ : Type} (number : τ)

theorem result_membership_setOf (key : Nat) (name : String) (shape : Shape) (x : Value) :
    ((setOf number key name shape).membership x).result = shape.call x := by
  have happly : (MembershipFunction.ofShape shape).apply x = (shape.call x).map .degree := rfl
  rw [setOf, FuzzySet.membership, FuzzySet.leafMembership, happly]
  cases shape.call x <;> rfl

/-- A set has a degree at each finite number at which a shape is definite, and fails at the
others. -/
def FollowsShape (s : FuzzySet τ) (shape : Shape) : Prop :=
  ∀ x : Binary64, x.isFinite = true →
    (¬ shape.IndefiniteAt x → ∃ d, (s.membership (.float x)).result = .ok d) ∧
      (shape.IndefiniteAt x →
        (s.membership (.float x)).result = .error (.failure (.notADegree .nan)))

theorem followsShape_setOf (key : Nat) (name : String) (shape : Shape) :
    FollowsShape (setOf number key name shape) shape := by
  intro x hx
  rw [result_membership_setOf]
  exact ⟨shape.exists_call_of_definite hx, shape.call_of_indefinite hx⟩

theorem forall₂_setsOf (key : Nat) (shapes : List (String × Shape)) :
    List.Forall₂ (fun named entry => entry.1 = named.1 ∧ FollowsShape entry.2 named.2) shapes
      (setsOf number key shapes) := by
  induction shapes generalizing key with
  | nil => exact .nil
  | cons first rest ih =>
    exact .cons ⟨rfl, followsShape_setOf number key first.1 first.2⟩ (ih (key + 1))

/-- **Degrees of defined sets.** The sets that are built from a document have degrees at all finite
numbers at which their shapes are definite, and at no others. -/
theorem membership_of_load [ClassHierarchy τ] {document : Value} {ds : Definitions}
    (hload : (load document).result = .ok ds) (key : Nat) :
    ∃ shapes sets, ofShapes shapes = ds ∧ (build number key ds).result = .ok sets ∧
      List.Forall₂ (fun named entry => entry.1 = named.1 ∧ FollowsShape entry.2 named.2) shapes
        sets := by
  obtain ⟨shapes, rfl⟩ := exists_shapes_of_sound (sound_of_load hload).definitions
  exact ⟨shapes, _, rfl, result_build number key shapes, forall₂_setsOf number key shapes⟩

/-- A triangle has degrees at all finite numbers. -/
theorem membership_of_load_triangle :
    let tent : Definitions := [("tent", ⟨.triangular, [0, 1, 1]⟩)]
    (load (toValue tent)).result = .ok tent ∧
      ∃ s, (build ElementType.float 0 tent).result = .ok [("tent", s)] ∧
        ∀ x : Binary64, x.isFinite = true → ∃ d, (s.membership (.float x)).result = .ok d := by
  intro tent
  let triangle : Triangle := ⟨0, 1, 1, Binary64.zero_le_one, Binary64.one_le_one⟩
  have htent : ofShapes [("tent", .triangle triangle)] = tent := rfl
  have hsound : (⟨.triangular, [0, 1, 1]⟩ : Definition).Sound := ⟨by decide, by decide +kernel⟩
  have hload : (load (toValue tent)).result = .ok tent := load_singleton_of_sound hsound "tent"
  have htame : (Shape.triangle triangle).Tame := ⟨by decide +kernel, by decide +kernel⟩
  obtain ⟨shapes, sets, hshapes, hbuild, hall⟩ := membership_of_load ElementType.float hload 0
  obtain rfl := ofShapes_injective (hshapes.trans htent.symm)
  obtain ⟨⟨name, s⟩, rest, ⟨rfl, hs⟩, hrest, rfl⟩ := List.forall₂_cons_left_iff.mp hall
  cases hrest
  exact ⟨hload, s, hbuild, fun x hx => (hs x hx).1 (Shape.not_indefiniteAt_of_tame htame x)⟩

/-- A bell curve whose width is NaN is accepted and built, and has no degree at zero. -/
theorem membership_of_load_fails_at_nan :
    let document : Value := .dict [(.text "blurred", .dict [(.text "type", .text "gaussian"),
      (.text "parameters", .list [.float 0, .float .nan])])]
    ∃ ds s, (load document).result = .ok ds ∧
      (build ElementType.float 0 ds).result = .ok [("blurred", s)] ∧
      (s.membership (.float 0)).result = .error (.failure (.notADegree .nan)) := by
  intro document
  have hsound : (⟨.gaussian, [0, .nan]⟩ : Definition).Sound := ⟨rfl, rfl⟩
  let blurred : Shape := .gaussian ⟨0, .nan, by decide⟩
  refine ⟨_, _, load_singleton_of_sound hsound "blurred",
    result_build ElementType.float 0 [("blurred", blurred)], ?_⟩
  have hindefinite : blurred.IndefiniteAt 0 := .inr (.inl rfl)
  rw [result_membership_setOf]
  exact blurred.call_of_indefinite isFinite_zero hindefinite

end Definitions

end FuzzyAlgebra

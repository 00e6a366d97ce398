import FuzzyAlgebra.FuzzySet.Membership
import FuzzyAlgebra.Proofs.Trace
import FuzzyAlgebra.Proofs.Value.Unit

/-!
# What primitive sets report

A primitive set checks the number that its function returned after it has become a floating-point
number. So a number that is too large for that is no failure of the set but a mishap, and a fraction
that is rounded onto an end of the range passes for a degree. Every other real number out of range is
reported with the set and the element, unless the name of the set, the number or the element cannot
be written out.
-/

namespace FuzzyAlgebra

open Binary64

namespace Degree

variable {v : Value}

theorem ofValue_of_error {m : Mishap} (hreal : v.isReal = true) (h : v.toBinary64 = .error m) :
    ofValue v = .error (.mishap m) := by
  rw [ofValue_eq, if_pos hreal, h]

theorem ofValue_of_number {y : Binary64} (hreal : v.isReal = true) (h : v.toBinary64 = .ok y)
    (hnone : ∀ d : Degree, d.number ≠ y) : ofValue v = .error (.failure (.notADegree y)) := by
  have hno : ofNumber? y = none := by
    apply Option.eq_none_iff_forall_ne_some.mpr
    intro d hd
    exact hnone d (ofNumber?_eq_some_iff.mp hd)
  rw [ofValue_eq, if_pos hreal, h]
  dsimp only
  rw [ofNumber, hno]

end Degree

namespace FuzzySet

variable {τ : Type} {label : Label τ} {function : MembershipFunction} {x r : Value}

/-- The number is reported out of range with the name of the set and the element, and logged once as
an error. -/
def Reported (name x : Value) (y : Binary64) (t : Traced Degree) : Prop :=
  ∃ f record, t.result = .error (.failure f) ∧ f.kind = .outOfRange ∧ f.code = .valueOutOfRange ∧
    f.details = [("set", .value name), ("element", Failure.textDetail x.display),
      ("value", Failure.floatDetail y)] ∧
    t.records = [record] ∧ record.level = .error

section

variable (happly : function.apply x = .ok r)
include happly

theorem leafMembership_of_degree {d : Degree} (h : Degree.ofValue r = .ok d) :
    leafMembership label function x = ⟨.ok d, [.called label.key]⟩ := by
  unfold leafMembership
  rw [happly, Traced.bind_of_ok rfl, Traced.bind_of_ok rfl, h]
  rfl

theorem leafMembership_of_mishap {m : Mishap} (h : Degree.ofValue r = .error (.mishap m)) :
    leafMembership label function x = ⟨.error (.mishap m), [.called label.key]⟩ := by
  unfold leafMembership
  rw [happly, Traced.bind_of_ok rfl, Traced.bind_of_ok rfl, h]
  rfl

theorem leafMembership_of_unwritable {y : Binary64}
    (h : Degree.ofValue r = .error (.failure (.notADegree y)))
    (hwrite : (label.isWritable && r.isWritable && x.isWritable) = false) :
    leafMembership label function x = ⟨.error (.mishap .malformed), [.called label.key]⟩ := by
  unfold leafMembership
  rw [happly, Traced.bind_of_ok rfl, Traced.bind_of_ok rfl, h]
  dsimp only
  rw [hwrite]
  rfl

theorem leafMembership_of_writable {y : Binary64}
    (h : Degree.ofValue r = .error (.failure (.notADegree y)))
    (hwrite : (label.isWritable && r.isWritable && x.isWritable) = true) :
    Reported label.name x y (leafMembership label function x) := by
  unfold leafMembership
  rw [happly, Traced.bind_of_ok rfl, Traced.bind_of_ok rfl, h]
  dsimp only
  rw [hwrite]
  exact ⟨_, _, rfl, rfl, rfl, rfl, rfl, rfl⟩

end

/-- **Real results of primitive sets.** A number in range is the degree, rounded. Of those out of
range, a whole number or a fraction that is too large for a floating-point number is a mishap; a
fraction that is rounded onto an end of the range is the degree; and every other number is reported,
unless it, the element or the name of the set cannot be written. -/
theorem membership_of_real {t : Traced Degree} (ht : (primitive label function).membership x = t)
    (happly : function.apply x = .ok r) (hreal : r.isReal = true) :
    (r.InUnit → ∃ d : Degree, r.toBinary64 = .ok d.number ∧ t.result = .ok d ∧ t.records = []) ∧
    (¬ r.InUnit →
      (∀ m, r.toBinary64 = .error m → m = .tooLarge ∧
        ((∃ n, r = .int n) ∨ ∃ num den, r = .fraction num den) ∧
        t.result = .error (.mishap .tooLarge) ∧ t.records = []) ∧
      (∀ d : Degree, r.toBinary64 = .ok d.number → r.RoundsOntoEnd d ∧
        t.result = .ok d ∧ t.records = []) ∧
      (∀ y, r.toBinary64 = .ok y → (∀ d : Degree, d.number ≠ y) →
        ((label.isWritable && r.isWritable && x.isWritable) = true → Reported label.name x y t) ∧
        ((label.isWritable && r.isWritable && x.isWritable) = false →
          t.result = .error (.mishap .malformed) ∧ t.records = []))) := by
  rw [membership] at ht
  have hdegree {d : Degree} (hd : r.toBinary64 = .ok d.number) :
      t.result = .ok d ∧ t.records = [] := by
    rw [← ht, leafMembership_of_degree happly (Degree.ofValue_eq_ok_iff.mpr ⟨hreal, hd⟩)]
    exact ⟨rfl, rfl⟩
  constructor
  · intro hunit
    obtain ⟨d, hd⟩ := Value.exists_degree_of_inUnit hreal hunit
    exact ⟨d, hd, hdegree hd⟩
  · intro hunit
    refine ⟨fun m hm => ?_, fun d hd => ?_, fun y hy hnone => ?_⟩
    · obtain ⟨rfl, hexact⟩ := Value.toBinary64_error_of_isReal hreal hm
      rw [← ht, leafMembership_of_mishap happly (Degree.ofValue_of_error hreal hm)]
      exact ⟨rfl, hexact, rfl, rfl⟩
    · exact ⟨Value.roundsOntoEnd_of_not_inUnit hreal hunit hd, hdegree hd⟩
    · have hvalue := Degree.ofValue_of_number hreal hy hnone
      constructor
      · intro hwrite
        rw [← ht]
        exact leafMembership_of_writable happly hvalue hwrite
      · intro hwrite
        rw [← ht, leafMembership_of_unwritable happly hvalue hwrite]
        exact ⟨rfl, rfl⟩

/-- A set named `broken` whose function always returns the same value. -/
def constantSet (r : Value) : FuzzySet ElementType :=
  primitive ⟨0, .text "broken", none⟩ (.const r)

/-- One is in range, and an infinite number is reported. -/
theorem membership_of_real_one_and_infinite :
    (∃ d : Degree, (Value.bool true).toBinary64 = .ok d.number ∧
      ((constantSet (.bool true)).membership (.int 0)).result = .ok d ∧
      ((constantSet (.bool true)).membership (.int 0)).records = []) ∧
    Reported (.text "broken") (.text "x") (.infinite false)
      ((constantSet (.float (.infinite false))).membership (.text "x")) := by
  have hinfinite : ¬ (Value.float (.infinite false)).InUnit := by
    rw [Value.inUnit_iff rfl]
    exact id
  constructor
  · exact (membership_of_real (x := .int 0) rfl rfl rfl).1 ⟨_, rfl, Value.inUnit_ofTruth true⟩
  · refine (((membership_of_real (x := .text "x") rfl rfl rfl).2 hinfinite).2.2 _ rfl ?_).1 rfl
    intro d hd
    have hfinite := isFinite_of_unit d.nonneg d.le_one
    rw [hd] at hfinite
    cases hfinite

/-- A whole number of 401 digits is out of range and is not reported as such, and neither is a
fraction that is less than zero by too little. -/
theorem membership_of_real_not_reported :
    (¬ (Value.int (10 ^ 400)).InUnit ∧
      ((constantSet (.int (10 ^ 400))).membership (.int 0)).result = .error (.mishap .tooLarge) ∧
      ((constantSet (.int (10 ^ 400))).membership (.int 0)).records = []) ∧
    (¬ (Value.fraction (-1) (10 ^ 400)).InUnit ∧
      ∃ d : Degree, ((constantSet (.fraction (-1) (10 ^ 400))).membership (.int 0)).result = .ok d ∧
        d.number = negativeZero) := by
  constructor
  · have hlarge : ¬ (10 ^ 400 : Int) ≤ 1 := by decide +kernel
    have hinfinite : (ofInt (10 ^ 400)).isFinite = false := by decide +kernel
    have hnumber : (Value.int (10 ^ 400)).toBinary64 = .error .tooLarge := by
      rw [Value.toBinary64, Value.bounded, hinfinite, if_neg Bool.false_ne_true]
    have hleaf : (constantSet (.int (10 ^ 400))).membership (.int 0) =
        ⟨.error (.mishap .tooLarge), [.called 0]⟩ :=
      leafMembership_of_mishap rfl (Degree.ofValue_of_error rfl hnumber)
    rw [Value.inUnit_iff rfl, hleaf]
    exact ⟨fun h => hlarge h.2.2, rfl, rfl⟩
  · have hround : ofQuotient (-1) (10 ^ 400) = negativeZero := by decide +kernel
    have hunit : 0 ≤ negativeZero ∧ negativeZero ≤ 1 := by decide +kernel
    obtain ⟨d, hd⟩ := Degree.exists_number_eq hunit.1 hunit.2
    have hnumber : (Value.fraction (-1) (10 ^ 400)).toBinary64 = .ok d.number := by
      rw [Value.toBinary64, hround, hd]
      rfl
    have hleaf : (constantSet (.fraction (-1) (10 ^ 400))).membership (.int 0) =
        ⟨.ok d, [.called 0]⟩ :=
      leafMembership_of_degree rfl (Degree.ofValue_eq_ok_iff.mpr ⟨rfl, hnumber⟩)
    rw [Value.inUnit_iff rfl, hleaf]
    exact ⟨fun h => absurd h.2.1 (by decide), d, rfl, hd⟩

end FuzzySet

end FuzzyAlgebra

import FuzzyAlgebra.Operator.Degrees
import FuzzyAlgebra.Proofs.Trace

/-!
# Which values are thresholds

A real number in range is a degree, and every other value is told why it is none, unless it is too
large for a floating-point number or cannot be written. A cut takes a degree for its threshold, and
every other operator takes nothing.
-/

namespace FuzzyAlgebra

/-- What a check of a value fails with: a failure, unless the number is too large or the value
cannot be written. -/
inductive Value.Refused (v : Value) : Fault → Prop
  | failure (f : Failure) : Refused v (.failure f)
  | tooLarge : v.isReal = true → v.toBinary64 = .error .tooLarge → Refused v (.mishap .tooLarge)
  | unwritable : v.isWritable = false → Refused v (.mishap .malformed)

theorem Value.refused_of_failQuoting {α : Type} {v : Value} {level : Level} {channel : String}
    {message : Thunk String} {f : Failure} {e : Fault}
    (h : (Traced.failQuoting v level channel message f : Traced α).result = .error e) :
    v.Refused e := by
  rw [Traced.result_failQuoting] at h
  split at h
  · cases h
    exact .failure f
  · rename_i hunwritable
    cases h
    exact .unwritable (Bool.eq_false_iff.mpr hunwritable)

/-! ### Degrees of values -/

/-- Only a number that is too large has no place among the floating-point numbers, and only whole
numbers and fractions can be. -/
theorem Value.toBinary64_error_of_isReal {v : Value} {m : Mishap} (hreal : v.isReal = true)
    (h : v.toBinary64 = .error m) :
    m = .tooLarge ∧ ((∃ n, v = .int n) ∨ ∃ num den, v = .fraction num den) := by
  have hbounded {x : Binary64} (hx : bounded x = .error m) : m = .tooLarge := by
    unfold bounded at hx
    split at hx
    · cases hx
    · exact (Except.error.inj hx).symm
  cases v with
  | int n => exact ⟨hbounded h, .inl ⟨n, rfl⟩⟩
  | fraction num den => exact ⟨hbounded h, .inr ⟨num, den, rfl⟩⟩
  | scalar s => cases s <;> cases h
  | bool b => cases h
  | float x => cases h
  | degree d => cases h
  | _ => cases hreal

namespace Degree

variable {v : Value} {d : Degree} {e : Fault}

theorem ofNumber_eq_ok_iff {x : Binary64} : ofNumber x = .ok d ↔ d.number = x := by
  rw [← ofNumber?_eq_some_iff, ofNumber]
  cases ofNumber? x <;> simp

theorem ofValue_eq (v : Value) :
    ofValue v =
      if v.isReal then
        match v.toBinary64 with
        | .ok x => ofNumber x
        | .error m => .error (.mishap m)
      else if v.isWritable then .error (.failure (.notNumeric v))
      else .error (.mishap .malformed) := by
  unfold ofValue
  split
  · rename_i d
    exact (ofNumber_eq_ok_iff.mpr rfl).symm
  · rfl

theorem ofValue_eq_ok_iff :
    ofValue v = .ok d ↔ v.isReal = true ∧ v.toBinary64 = .ok d.number := by
  rw [ofValue_eq]
  cases hreal : v.isReal with
  | false => cases v.isWritable <;> simp
  | true =>
    cases v.toBinary64 with
    | ok x => simp [ofNumber_eq_ok_iff, eq_comm (a := d.number)]
    | error m => simp

theorem refused_of_ofValue (h : ofValue v = .error e) : v.Refused e := by
  rw [ofValue_eq] at h
  split at h
  · rename_i hreal
    cases hnumber : v.toBinary64 with
    | ok x =>
      rw [hnumber] at h
      dsimp only [ofNumber] at h
      split at h
      · cases h
      · cases h
        exact .failure _
    | error m =>
      rw [hnumber] at h
      obtain ⟨rfl, -⟩ := Value.toBinary64_error_of_isReal hreal hnumber
      cases h
      exact .tooLarge hreal hnumber
  · split at h
    · cases h
      exact .failure _
    · rename_i hunwritable
      cases h
      exact .unwritable (Bool.eq_false_iff.mpr hunwritable)

end Degree

namespace Operator

variable {op : Operator} {v : Value} {e : Fault}

/-- A cut takes a real number in range, and keeps it as a degree; nothing else takes anything. -/
inductive TakesThreshold (op : Operator) : Value → Option Degree → Prop
  | nothing : op.requiresThreshold = false → TakesThreshold op .absent none
  | degree {v : Value} {d : Degree} :
    op.requiresThreshold = true → v.isReal = true → v.toBinary64 = .ok d.number →
      TakesThreshold op v (some d)

theorem TakesThreshold.eq_none {t : Option Degree} (h : op.TakesThreshold v t)
    (hno : op.requiresThreshold = false) : t = none := by
  cases h with
  | nothing _ => rfl
  | degree hrequires _ _ =>
    rw [hno] at hrequires
    cases hrequires

theorem TakesThreshold.eq_absent {t : Option Degree} (h : op.TakesThreshold v t)
    (hno : op.requiresThreshold = false) : v = .absent := by
  cases h with
  | nothing _ => rfl
  | degree hrequires _ _ =>
    rw [hno] at hrequires
    cases hrequires

theorem TakesThreshold.exists_cut {t : Option Degree} (h : op.TakesThreshold v t) :
    ∃ cut : op.Threshold, cut.val = t := by
  cases h with
  | nothing hno => exact ⟨⟨none, hno.symm⟩, rfl⟩
  | degree hrequires _ _ => exact ⟨⟨some _, hrequires.symm⟩, rfl⟩

theorem result_validateThreshold_eq_ok_iff {cut : op.Threshold} :
    (op.validateThreshold v).result = .ok cut ↔ op.TakesThreshold v cut.val := by
  obtain ⟨t, ht⟩ := cut
  unfold validateThreshold
  constructor
  · intro h
    split at h
    · rename_i hrequires
      split at h
      · cases h
      · split at h
        · rename_i d hd
          cases h
          obtain ⟨hreal, hnumber⟩ := Degree.ofValue_eq_ok_iff.mp hd
          exact .degree hrequires hreal hnumber
        · rw [Traced.result_failQuoting] at h
          split at h <;> cases h
        · cases h
    · rename_i hrequires
      split at h
      · cases h
        exact .nothing (Bool.eq_false_iff.mpr hrequires)
      · rw [Traced.result_failQuoting] at h
        split at h <;> cases h
  · intro h
    cases h with
    | nothing hno =>
      rw [dif_neg (Bool.eq_false_iff.mp hno)]
      rfl
    | degree hrequires hreal hnumber =>
      rw [dif_pos hrequires]
      split
      · cases hreal
      · rw [Degree.ofValue_eq_ok_iff.mpr ⟨hreal, hnumber⟩]
        rfl

theorem refused_of_validateThreshold (h : (op.validateThreshold v).result = .error e) :
    v.Refused e := by
  unfold validateThreshold at h
  split at h
  · split at h
    · cases h
      exact .failure _
    · split at h
      · cases h
      · exact Value.refused_of_failQuoting h
      · rename_i hvalue
        cases h
        exact Degree.refused_of_ofValue hvalue
  · split at h
    · cases h
    · exact Value.refused_of_failQuoting h

/-- Only a cut looks at how large its threshold is. -/
theorem requiresThreshold_of_tooLarge
    (h : (op.validateThreshold v).result = .error (.mishap .tooLarge)) :
    op.requiresThreshold = true := by
  cases hrequires : op.requiresThreshold with
  | true => rfl
  | false =>
    unfold validateThreshold at h
    rw [dif_neg (Bool.eq_false_iff.mp hrequires)] at h
    split at h
    · cases h
    · rw [Traced.result_failQuoting] at h
      split at h <;> cases h

/-- A value that names no operator is told so, unless it cannot be written. -/
theorem unwritable_of_ofValue {m : Mishap} (h : ofValue v = .error (.mishap m)) :
    m = .malformed ∧ v.isWritable = false := by
  unfold ofValue at h
  split at h
  · cases h
  · split at h
    · split at h <;> cases h
    · rename_i hunwritable
      cases h
      exact ⟨rfl, Bool.eq_false_iff.mpr hunwritable⟩

end Operator

end FuzzyAlgebra

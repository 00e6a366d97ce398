import FuzzyAlgebra.Proofs.FuzzySet.Construction
import FuzzyAlgebra.Proofs.FuzzySet.DeMorgan

/-!
# Degrees of compositions

A composition that is accepted is the operator over the sets it was asked to combine. Where every
leaf succeeds, its degree in units is the plain arithmetic of the operator on the degrees of its
operands, so laws about degrees become laws about whole numbers.
-/

namespace FuzzyAlgebra

open Binary64

namespace FuzzySet

variable {τ : Type} {op : Operator} {a b s t : FuzzySet τ} {v x : Value} {d e : Degree}

/-! ### Which elements have a degree -/

def LeavesSucceed (s : FuzzySet τ) (x : Value) : Prop :=
  ∀ leaf ∈ s.leaves, ∃ d, (leaf.membership x).result = .ok d

def HasDegree (s : FuzzySet τ) (x : Value) : Prop :=
  ∃ d, (s.membership x).result = .ok d

theorem leavesSucceed_of_result (h : (s.membership x).result = .ok d) : s.LeavesSucceed x := by
  intro leaf hleaf
  induction s generalizing d with
  | primitive label function =>
    obtain rfl := List.mem_singleton.mp hleaf
    exact ⟨d, h⟩
  | unary label operation operand ih =>
    rw [membership_unary, Traced.result_bind_eq_ok_iff] at h
    obtain ⟨c, hc, -⟩ := h
    exact ih hc hleaf
  | binary label operation first second ihfirst ihsecond =>
    rw [membership_binary, Traced.result_bind_eq_ok_iff] at h
    obtain ⟨c, hc, hrest⟩ := h
    obtain ⟨c', hc', -⟩ := Traced.result_bind_eq_ok_iff.mp hrest
    rcases List.mem_append.mp hleaf with hfirst | hsecond
    · exact ihfirst hc hfirst
    · exact ihsecond hc' hsecond

theorem hasDegree_iff_leavesSucceed : s.HasDegree x ↔ s.LeavesSucceed x := by
  constructor
  · rintro ⟨d, hd⟩
    exact leavesSucceed_of_result hd
  · intro h
    exact exists_degree_of_leaves h

/-- The degree of an element in units, where its leaves have one. -/
def unitsAt (s : FuzzySet τ) (x : Value) : Nat := (s.valuation (degreeAt x)).units

theorem LeavesSucceed.exists_degree (h : s.LeavesSucceed x) :
    ∃ d, (s.membership x).result = .ok d ∧ d.units = s.unitsAt x :=
  ⟨_, result_eq_valuation h, rfl⟩

theorem unitsAt_le (s : FuzzySet τ) (x : Value) : s.unitsAt x ≤ unitsPerOne :=
  Degree.units_le _

theorem spacing_dvd_unitsAt (s : FuzzySet τ) (x : Value) : spacing (s.unitsAt x) ∣ s.unitsAt x :=
  Degree.spacing_dvd_units _

/-! ### Comparing two sets at one element -/

/-- Both sets have a degree, and the two are equal as numbers. -/
def SameDegree (x : Value) (s t : FuzzySet τ) : Prop :=
  ∃ d e, (s.membership x).result = .ok d ∧ (t.membership x).result = .ok e ∧
    d.number.eqv e.number = true

/-- Both sets have a degree, and that of the first is at most that of the second. -/
def AtMost (x : Value) (s t : FuzzySet τ) : Prop :=
  ∃ d e, (s.membership x).result = .ok d ∧ (t.membership x).result = .ok e ∧ d.number ≤ e.number

theorem SameDegree.of_units (hs : s.LeavesSucceed x) (ht : t.LeavesSucceed x)
    (h : s.unitsAt x = t.unitsAt x) : SameDegree x s t := by
  obtain ⟨d, hd, hdunits⟩ := hs.exists_degree
  obtain ⟨e, he, heunits⟩ := ht.exists_degree
  refine ⟨d, e, hd, he, (eqv_iff_of_rank d.rank_number e.rank_number).mpr ?_⟩
  rw [hdunits, heunits, h]

theorem AtMost.of_units (hs : s.LeavesSucceed x) (ht : t.LeavesSucceed x)
    (h : s.unitsAt x ≤ t.unitsAt x) : AtMost x s t := by
  obtain ⟨d, hd, hdunits⟩ := hs.exists_degree
  obtain ⟨e, he, heunits⟩ := ht.exists_degree
  refine ⟨d, e, hd, he, Degree.number_le_iff.mpr ?_⟩
  rw [hdunits, heunits]
  exact h

/-- No composition has negative zero, so equal units are one degree there. -/
theorem exists_common_degree (hs : s.LeavesSucceed x) (ht : t.LeavesSucceed x)
    (hscomposite : s.isPrimitive = false) (htcomposite : t.isPrimitive = false)
    (h : s.unitsAt x = t.unitsAt x) :
    ∃ d, (s.membership x).result = .ok d ∧ (t.membership x).result = .ok d := by
  obtain ⟨d, hd, hdunits⟩ := hs.exists_degree
  obtain ⟨e, he, heunits⟩ := ht.exists_degree
  have hde : d = e := by
    apply Degree.eq_of_units_eq (ne_negativeZero_of_composite hscomposite hd)
      (ne_negativeZero_of_composite htcomposite he)
    rw [hdunits, heunits, h]
  exact ⟨d, hd, hde ▸ he⟩

/-! ### Compositions that are accepted -/

variable [ClassHierarchy τ]

/-- The set is what `combine` gives, by whatever value the operator is named and under whatever key
and name. -/
def Composed (op : Operator) (a : FuzzySet τ) (b : Operand τ) (threshold : Value)
    (s : FuzzySet τ) : Prop :=
  ∃ key operator name, Operator.ofValue operator = .ok op ∧
    (combine key (.set a) operator b threshold name).result = .ok s

theorem Combined.composed {b : Operand τ} (h : Combined op a b s) : Composed op a b .absent s := by
  obtain ⟨key, name, hresult⟩ := h
  exact ⟨key, .operator op, name, rfl, hresult⟩

theorem makeComposite_of_ofValue {operator : Value} (h : Operator.ofValue operator = .ok op)
    (key : Nat) (first second : Operand τ) (threshold name : Value) :
    makeComposite key operator first second threshold name =
      makeComposite key (.operator op) first second threshold name := by
  have hresolved : (Traced.ofExcept (Operator.ofValue operator)).result = .ok op := h
  have hnamed : (Traced.ofExcept (Operator.ofValue (.operator op))).result = .ok op := rfl
  rw [makeComposite, Traced.bind_of_ok hresolved, makeComposite, Traced.bind_of_ok hnamed, h]
  rfl

theorem Composed.exists_binary (h : Composed op a (.set b) v s) (hop : op.isBinary = true) :
    ∃ label, generalType a.elementType b.elementType = some label.elementType ∧
      s = .binary label ⟨op, hop⟩ a b := by
  obtain ⟨key, operator, name, hoperator, hresult⟩ := h
  have hmade := (result_combine_eq_ok_iff.mp hresult).1
  obtain ⟨op', hop', -, -, htakes, -⟩ := fits_of_makeComposite hmade
  obtain rfl : op = op' := Except.ok.inj (hoperator.symm.trans hop')
  obtain rfl := htakes.eq_absent (Operator.requiresThreshold_of_isBinary hop)
  rw [makeComposite_of_ofValue hoperator] at hmade
  obtain ⟨type, htype, rfl⟩ := (result_makeComposite_binary hop).mp hmade
  exact ⟨⟨key, name, type⟩, htype, rfl⟩

theorem Composed.exists_unary (h : Composed op a (.value .absent) v s)
    (hop : op.isBinary = false) :
    ∃ label cut, label.elementType = a.elementType ∧
      (op.validateThreshold v).result = .ok cut ∧ s = .unary label ⟨op, cut, hop⟩ a := by
  obtain ⟨key, operator, name, hoperator, hresult⟩ := h
  have hmade := (result_combine_eq_ok_iff.mp hresult).1
  rw [makeComposite_of_ofValue hoperator] at hmade
  obtain ⟨cut, hcut, rfl⟩ := (result_makeComposite_unary hop).mp hmade
  exact ⟨⟨key, name, a.elementType⟩, cut, rfl, hcut, rfl⟩

section Binary

variable (h : Composed op a (.set b) v s) (hop : op.isBinary = true)
include h hop

theorem Composed.isPrimitive_eq_false : s.isPrimitive = false := by
  obtain ⟨label, -, rfl⟩ := h.exists_binary hop
  rfl

theorem Composed.leavesSucceed_iff : s.LeavesSucceed x ↔ a.LeavesSucceed x ∧ b.LeavesSucceed x := by
  obtain ⟨label, -, rfl⟩ := h.exists_binary hop
  simp only [LeavesSucceed, leaves, List.forall_mem_append]

theorem Composed.unitsAt_eq : s.unitsAt x = op.combineUnits (a.unitsAt x) (b.unitsAt x) 0 := by
  obtain ⟨label, -, rfl⟩ := h.exists_binary hop
  exact BinaryOperation.units_degree _ _ _

end Binary

end FuzzySet

end FuzzyAlgebra

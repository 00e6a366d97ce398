import FuzzyAlgebra.Proofs.Operator.Degrees

/-!
# Evaluating graphs of sets

A composite set turns the degrees of its operands into a degree, whatever these degrees are: building
the set has settled everything that evaluation checks again. So the only faults of a graph are those
of its leaves, and where no leaf fails there is a degree.
-/

namespace FuzzyAlgebra

namespace Operator

variable {op : Operator} {a b t : Binary64}

theorem combinedDegree_ne_negativeZero (ha : a.isFinite = true) (hb : b.isFinite = true) :
    (op.combinedDegree a b t ha hb).number ≠ .negativeZero :=
  Degree.clip_ne_negativeZero (isNaN_combineNumbers ha hb)

end Operator

def UnaryOperation.degree (operation : UnaryOperation) (d : Degree) : Degree :=
  operation.operator.combinedDegree d.number 0 operation.threshold.number d.isFinite_number
    Binary64.isFinite_zero

def BinaryOperation.degree (operation : BinaryOperation) (d e : Degree) : Degree :=
  operation.operator.combinedDegree d.number e.number 0 d.isFinite_number e.isFinite_number

theorem UnaryOperation.apply_eq_pure (operation : UnaryOperation) (d : Degree) :
    operation.operator.apply (.degree d) .absent (FuzzySet.degreeValue operation.threshold.val) =
      pure (operation.degree d) :=
  Operator.apply_degree operation.isUnary d operation.threshold

theorem BinaryOperation.apply_eq_pure (operation : BinaryOperation) (d e : Degree) :
    operation.operator.apply (.degree d) (.degree e) .absent = pure (operation.degree d e) :=
  Operator.apply_degrees operation.isBinary d e

namespace FuzzySet

variable {τ : Type}

/-- The primitive sets of the graph unfolded into a tree, from the first operand to the second. -/
def leaves : FuzzySet τ → List (FuzzySet τ)
  | primitive label function => [primitive label function]
  | unary _ _ operand => operand.leaves
  | binary _ _ first second => first.leaves ++ second.leaves

/-- Every set of the graph, the set itself first. -/
def nodes : FuzzySet τ → List (FuzzySet τ)
  | primitive label function => [primitive label function]
  | unary label operation operand => unary label operation operand :: operand.nodes
  | binary label operation first second =>
    binary label operation first second :: (first.nodes ++ second.nodes)

theorem membership_unary (label : Label τ) (operation : UnaryOperation) (operand : FuzzySet τ)
    (x : Value) :
    (unary label operation operand).membership x =
      operand.membership x >>= fun d => pure (operation.degree d) := by
  rw [membership]
  congr 1
  funext d
  exact operation.apply_eq_pure d

theorem membership_binary (label : Label τ) (operation : BinaryOperation)
    (first second : FuzzySet τ) (x : Value) :
    (binary label operation first second).membership x =
      first.membership x >>= fun d =>
        second.membership x >>= fun e => pure (operation.degree d e) := by
  rw [membership]
  congr 1
  funext d
  congr 1
  funext e
  exact operation.apply_eq_pure d e

/-- A fault of a graph is the fault of one of its leaves. -/
theorem exists_leaf_of_error {s : FuzzySet τ} {x : Value} {e : Fault}
    (h : (s.membership x).result = .error e) :
    ∃ leaf ∈ s.leaves, (leaf.membership x).result = .error e := by
  induction s with
  | primitive label function => exact ⟨_, List.mem_singleton_self _, h⟩
  | unary label operation operand ih =>
    rw [membership_unary, Traced.result_bind_eq_error_iff] at h
    rcases h with herror | ⟨d, -, hpure⟩
    · exact ih herror
    · cases hpure
  | binary label operation first second ihfirst ihsecond =>
    rw [membership_binary, Traced.result_bind_eq_error_iff] at h
    rcases h with herror | ⟨d, -, hrest⟩
    · obtain ⟨leaf, hleaf, hfault⟩ := ihfirst herror
      exact ⟨leaf, List.mem_append_left _ hleaf, hfault⟩
    · rw [Traced.result_bind_eq_error_iff] at hrest
      rcases hrest with herror | ⟨d', -, hpure⟩
      · obtain ⟨leaf, hleaf, hfault⟩ := ihsecond herror
        exact ⟨leaf, List.mem_append_right _ hleaf, hfault⟩
      · cases hpure

theorem exists_degree_of_leaves {s : FuzzySet τ} {x : Value}
    (h : ∀ leaf ∈ s.leaves, ∃ d, (leaf.membership x).result = .ok d) :
    ∃ d, (s.membership x).result = .ok d := by
  cases hresult : (s.membership x).result with
  | ok d => exact ⟨d, rfl⟩
  | error e =>
    obtain ⟨leaf, hleaf, herror⟩ := exists_leaf_of_error hresult
    obtain ⟨d, hd⟩ := h leaf hleaf
    rw [herror] at hd
    cases hd

theorem ne_negativeZero_of_composite {s : FuzzySet τ} {x : Value} {d : Degree}
    (hcomposite : s.isPrimitive = false) (h : (s.membership x).result = .ok d) :
    d.number ≠ .negativeZero := by
  cases s with
  | primitive label function => cases hcomposite
  | unary label operation operand =>
    rw [membership_unary, Traced.result_bind_eq_ok_iff] at h
    obtain ⟨c, -, hpure⟩ := h
    cases hpure
    exact Operator.combinedDegree_ne_negativeZero _ _
  | binary label operation first second =>
    rw [membership_binary, Traced.result_bind_eq_ok_iff] at h
    obtain ⟨c, -, hrest⟩ := h
    rw [Traced.result_bind_eq_ok_iff] at hrest
    obtain ⟨c', -, hpure⟩ := hrest
    cases hpure
    exact Operator.combinedDegree_ne_negativeZero _ _

/-- **Evaluation is total above the leaves.** Where every leaf of a graph has a degree, so has the
graph: a number between zero and one, and positive zero rather than negative zero above the leaves. A
fault is always that of a leaf, and no operator of the graph fails or logs on any degrees. -/
theorem membership_total (s : FuzzySet τ) (x : Value) :
    ((∀ leaf ∈ s.leaves, ∃ d, (leaf.membership x).result = .ok d) →
      ∃ d, (s.membership x).result = .ok d ∧ 0 ≤ d.number ∧ d.number ≤ 1 ∧
        d.number.isNaN = false ∧ (s.isPrimitive = false → d.number ≠ .negativeZero)) ∧
    (∀ e, (s.membership x).result = .error e →
      ∃ leaf ∈ s.leaves, (leaf.membership x).result = .error e) ∧
    (∀ label operation operand, .unary label operation operand ∈ s.nodes → ∀ d : Degree,
      ∃ r, operation.operator.apply (.degree d) .absent (degreeValue operation.threshold.val) =
        pure r) ∧
    (∀ label operation first second, .binary label operation first second ∈ s.nodes →
      ∀ d e : Degree, ∃ r, operation.operator.apply (.degree d) (.degree e) .absent = pure r) := by
  refine ⟨?_, ?_, ?_, ?_⟩
  · intro hleaves
    obtain ⟨d, hd⟩ := exists_degree_of_leaves hleaves
    exact ⟨d, hd, d.nonneg, d.le_one, d.isNaN_number,
      fun hcomposite => ne_negativeZero_of_composite hcomposite hd⟩
  · intro e he
    exact exists_leaf_of_error he
  · intro label operation operand _ d
    exact ⟨_, operation.apply_eq_pure d⟩
  · intro label operation first second _ d e
    exact ⟨_, operation.apply_eq_pure d e⟩

/-- A leaf reached twice whose degree is negative zero. -/
theorem membership_total_at_negativeZero :
    let leaf : FuzzySet ElementType := .primitive ⟨1, .absent, none⟩ .identity
    let s : FuzzySet ElementType := .binary ⟨2, .absent, none⟩ ⟨.intersection, rfl⟩ leaf leaf
    let x : Value := .degree ⟨.negativeZero, by decide +kernel, by decide +kernel⟩
    (∀ leaf ∈ s.leaves, ∃ d, (leaf.membership x).result = .ok d) ∧
      ∃ d, (s.membership x).result = .ok d ∧ 0 ≤ d.number ∧ d.number ≤ 1 ∧
        d.number.isNaN = false ∧ (s.isPrimitive = false → d.number ≠ .negativeZero) := by
  intro leaf s x
  have hleaf : (leaf.membership x).result = .ok _ := rfl
  have hleaves : ∀ leaf ∈ s.leaves, ∃ d, (leaf.membership x).result = .ok d := by
    intro l hl
    have hl : l = leaf := by simpa [s, leaves, leaf] using hl
    rw [hl]
    exact ⟨_, hleaf⟩
  exact ⟨hleaves, (membership_total s x).1 hleaves⟩

end FuzzySet

end FuzzyAlgebra

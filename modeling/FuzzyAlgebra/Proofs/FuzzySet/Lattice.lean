import FuzzyAlgebra.Proofs.ElementType
import FuzzyAlgebra.Proofs.FuzzySet.Composition

/-!
# Lattice laws

Union and intersection take the greater and the smaller of two degrees, and neither rounds. So they
make a distributive lattice of the degrees, and every law of it holds exactly of the sets that are
composed by it. A sum and a product round, which costs them these laws, but not that the operands
can be exchanged. An exchange changes the order in which the leaves are called, and so which fault
comes first, but never whether there is one.
-/

namespace FuzzyAlgebra

open Binary64

namespace Operator

variable {op op' : Operator}

/-- The operators that do not look at the order of their operands. -/
inductive Commutes : Operator → Prop
  | union : Commutes union
  | intersection : Commutes intersection
  | add : Commutes add
  | multiply : Commutes multiply

theorem Commutes.isBinary (h : Commutes op) : op.isBinary = true := by
  cases h <;> rfl

theorem Commutes.combineUnits_comm (h : Commutes op) (m n k : Nat) :
    op.combineUnits m n k = op.combineUnits n m k := by
  cases h with
  | union => exact Nat.max_comm m n
  | intersection => exact Nat.min_comm m n
  | add => simp only [combineUnits, Nat.add_comm m n]
  | multiply => simp only [combineUnits, Nat.mul_comm m n]

namespace Dual

variable (h : Dual op op')
include h

theorem combineUnits_self (m k : Nat) : op.combineUnits m m k = m := by
  cases h with
  | unionIntersection => exact Nat.max_self m
  | intersectionUnion => exact Nat.min_self m

theorem combineUnits_assoc (m n p k : Nat) :
    op.combineUnits (op.combineUnits m n k) p k = op.combineUnits m (op.combineUnits n p k) k := by
  cases h with
  | unionIntersection => exact Nat.max_assoc m n p
  | intersectionUnion => exact Nat.min_assoc m n p

theorem combineUnits_absorb (m n k : Nat) :
    op.combineUnits m (op'.combineUnits m n k) k = m := by
  cases h <;> simp only [combineUnits] <;> omega

theorem combineUnits_distrib (m n p k : Nat) :
    op.combineUnits m (op'.combineUnits n p k) k =
      op'.combineUnits (op.combineUnits m n k) (op.combineUnits m p k) k := by
  cases h <;> simp only [combineUnits] <;> omega

theorem combineUnits_distrib_right (m n p k : Nat) :
    op.combineUnits (op'.combineUnits m n k) p k =
      op'.combineUnits (op.combineUnits m p k) (op.combineUnits n p k) k := by
  cases h <;> simp only [combineUnits] <;> omega

end Dual

end Operator

namespace FuzzySet

variable {τ : Type} [ClassHierarchy τ]

/-- The two sets are the two sides of a law, composed of the sets of the list. The dual operators
are union and intersection, in one order or the other. -/
inductive LatticeLaw : List (FuzzySet τ) → FuzzySet τ → FuzzySet τ → Prop
  | idempotent {op op' : Operator} {a s : FuzzySet τ} : Operator.Dual op op' →
    Composed op a (.set a) .absent s → LatticeLaw [a] s a
  | commutative {op : Operator} {a b s t : FuzzySet τ} : Operator.Commutes op →
    Composed op a (.set b) .absent s → Composed op b (.set a) .absent t → LatticeLaw [a, b] s t
  | associative {op op' : Operator} {a b c u s v t : FuzzySet τ} : Operator.Dual op op' →
    Composed op a (.set b) .absent u → Composed op u (.set c) .absent s →
    Composed op b (.set c) .absent v → Composed op a (.set v) .absent t → LatticeLaw [a, b, c] s t
  | absorptive {op op' : Operator} {a b u s : FuzzySet τ} : Operator.Dual op op' →
    Composed op' a (.set b) .absent u → Composed op a (.set u) .absent s → LatticeLaw [a, b] s a
  | distributive {op op' : Operator} {a b c u s v w t : FuzzySet τ} : Operator.Dual op op' →
    Composed op' b (.set c) .absent u → Composed op a (.set u) .absent s →
    Composed op a (.set b) .absent v → Composed op a (.set c) .absent w →
    Composed op' v (.set w) .absent t → LatticeLaw [a, b, c] s t
  | distributiveRight {op op' : Operator} {a b c u s v w t : FuzzySet τ} : Operator.Dual op op' →
    Composed op' a (.set b) .absent u → Composed op u (.set c) .absent s →
    Composed op a (.set c) .absent v → Composed op b (.set c) .absent w →
    Composed op' v (.set w) .absent t → LatticeLaw [a, b, c] s t

variable {sets : List (FuzzySet τ)} {a b s t : FuzzySet τ} {x : Value}

/-- Neither side has leaves that are not those of the sets it is composed of. -/
theorem LatticeLaw.leavesSucceed (h : LatticeLaw sets s t) (hsets : ∀ a ∈ sets, a.LeavesSucceed x) :
    s.LeavesSucceed x ∧ t.LeavesSucceed x := by
  cases h with
  | idempotent hdual hs =>
    have ha := hsets _ List.mem_cons_self
    exact ⟨(hs.leavesSucceed_iff hdual.isBinary).mpr ⟨ha, ha⟩, ha⟩
  | commutative hop hs ht =>
    simp only [List.forall_mem_cons] at hsets
    simp [hs.leavesSucceed_iff hop.isBinary, ht.leavesSucceed_iff hop.isBinary, hsets]
  | associative hdual hu hs hv ht =>
    simp only [List.forall_mem_cons] at hsets
    have hop := hdual.isBinary
    simp [hs.leavesSucceed_iff hop, hu.leavesSucceed_iff hop, ht.leavesSucceed_iff hop,
      hv.leavesSucceed_iff hop, hsets]
  | absorptive hdual hu hs =>
    simp only [List.forall_mem_cons] at hsets
    simp [hs.leavesSucceed_iff hdual.isBinary, hu.leavesSucceed_iff hdual.isBinary_right, hsets]
  | distributive hdual hu hs hv hw ht =>
    simp only [List.forall_mem_cons] at hsets
    have hop := hdual.isBinary
    have hop' := hdual.isBinary_right
    simp [hs.leavesSucceed_iff hop, hu.leavesSucceed_iff hop', ht.leavesSucceed_iff hop',
      hv.leavesSucceed_iff hop, hw.leavesSucceed_iff hop, hsets]
  | distributiveRight hdual hu hs hv hw ht =>
    simp only [List.forall_mem_cons] at hsets
    have hop := hdual.isBinary
    have hop' := hdual.isBinary_right
    simp [hs.leavesSucceed_iff hop, hu.leavesSucceed_iff hop', ht.leavesSucceed_iff hop',
      hv.leavesSucceed_iff hop, hw.leavesSucceed_iff hop, hsets]

theorem LatticeLaw.unitsAt_eq (h : LatticeLaw sets s t) (x : Value) :
    s.unitsAt x = t.unitsAt x := by
  cases h with
  | idempotent hdual hs => rw [hs.unitsAt_eq hdual.isBinary, hdual.combineUnits_self]
  | commutative hop hs ht =>
    rw [hs.unitsAt_eq hop.isBinary, ht.unitsAt_eq hop.isBinary, hop.combineUnits_comm]
  | associative hdual hu hs hv ht =>
    have hop := hdual.isBinary
    rw [hs.unitsAt_eq hop, hu.unitsAt_eq hop, ht.unitsAt_eq hop, hv.unitsAt_eq hop,
      hdual.combineUnits_assoc]
  | absorptive hdual hu hs =>
    rw [hs.unitsAt_eq hdual.isBinary, hu.unitsAt_eq hdual.isBinary_right,
      hdual.combineUnits_absorb]
  | distributive hdual hu hs hv hw ht =>
    have hop := hdual.isBinary
    have hop' := hdual.isBinary_right
    rw [hs.unitsAt_eq hop, hu.unitsAt_eq hop', ht.unitsAt_eq hop', hv.unitsAt_eq hop,
      hw.unitsAt_eq hop, hdual.combineUnits_distrib]
  | distributiveRight hdual hu hs hv hw ht =>
    have hop := hdual.isBinary
    have hop' := hdual.isBinary_right
    rw [hs.unitsAt_eq hop, hu.unitsAt_eq hop', ht.unitsAt_eq hop', hv.unitsAt_eq hop,
      hw.unitsAt_eq hop, hdual.combineUnits_distrib_right]

theorem Composed.hasDegree_swap {op : Operator} (hop : op.isBinary = true)
    (hs : Composed op a (.set b) .absent s) (ht : Composed op b (.set a) .absent t) (x : Value) :
    s.HasDegree x ↔ t.HasDegree x := by
  rw [hasDegree_iff_leavesSucceed, hasDegree_iff_leavesSucceed, hs.leavesSucceed_iff hop,
    ht.leavesSucceed_iff hop]
  exact and_comm

/-- **Lattice laws on memberships.** Union and intersection are idempotent, commutative and
associative, absorb each other and distribute over each other, and sums and products are
commutative: wherever the leaves of the sets that a law is about all succeed, its two sides have
equal degrees. Whatever the element, an exchange of operands does not change whether there is a
degree. -/
theorem membership_latticeLaws :
    (∀ (sets : List (FuzzySet τ)) (s t : FuzzySet τ), LatticeLaw sets s t → ∀ x : Value,
      (∀ a ∈ sets, ∀ leaf ∈ a.leaves, ∃ d, (leaf.membership x).result = .ok d) →
      ∃ d e, (s.membership x).result = .ok d ∧ (t.membership x).result = .ok e ∧
        d.number.eqv e.number = true) ∧
    ∀ (op : Operator) (a b s t : FuzzySet τ), op.Commutes → Composed op a (.set b) .absent s →
      Composed op b (.set a) .absent t → ∀ x : Value,
        (∃ d, (s.membership x).result = .ok d) ↔ ∃ e, (t.membership x).result = .ok e := by
  refine ⟨?_, ?_⟩
  · intro sets s t hlaw x hleaves
    obtain ⟨hs, ht⟩ := hlaw.leavesSucceed hleaves
    exact SameDegree.of_units hs ht (hlaw.unitsAt_eq x)
  · intro op a b s t hop hs ht x
    exact Composed.hasDegree_swap hop.isBinary hs ht x

/-- Absorption at negative zero, where the composite has positive zero, and an exchange of operands
one of which always fails. -/
theorem membership_latticeLaws_at_negativeZero :
    let a : FuzzySet ElementType := .primitive ⟨1, .absent, some .dog⟩ .identity
    let b : FuzzySet ElementType := .primitive ⟨2, .absent, some .animal⟩
      (.raising "ValueError" (.text "unknown animal"))
    let c : FuzzySet ElementType := .primitive ⟨3, .text "all", none⟩
      (.const (.degree ⟨1, Binary64.zero_le_one, Binary64.one_le_one⟩))
    let u := .binary ⟨4, .absent, some .dog⟩ ⟨.intersection, rfl⟩ a c
    let s := .binary ⟨5, .absent, some .dog⟩ ⟨.union, rfl⟩ a u
    let t := .binary ⟨6, .absent, some .animal⟩ ⟨.add, rfl⟩ a b
    let t' := .binary ⟨7, .absent, some .animal⟩ ⟨.add, rfl⟩ b a
    let x : Value := .degree ⟨.negativeZero, zero_le_negativeZero, negativeZero_le_one⟩
    LatticeLaw [a, c] s a ∧
      (∀ set ∈ [a, c], ∀ leaf ∈ set.leaves, ∃ d, (leaf.membership x).result = .ok d) ∧
      (∃ d e, (s.membership x).result = .ok d ∧ (a.membership x).result = .ok e ∧
        d.number.eqv e.number = true) ∧
      Operator.Commutes .add ∧ Composed .add a (.set b) .absent t ∧
      Composed .add b (.set a) .absent t' ∧
      ((∃ d, (t.membership x).result = .ok d) ↔ ∃ e, (t'.membership x).result = .ok e) := by
  intro a b c u s t t' x
  have hu : Composed .intersection a (.set c) .absent u :=
    ⟨4, .text "Intersection", .absent, rfl, rfl⟩
  have hs : Composed .union a (.set u) .absent s := ⟨5, .operator .union, .absent, rfl, rfl⟩
  have hlaw : LatticeLaw [a, c] s a := .absorptive .unionIntersection hu hs
  have ha : (a.membership x).result = .ok _ := rfl
  have hc : (c.membership x).result = .ok _ := rfl
  have hleaves : ∀ set ∈ [a, c], set.LeavesSucceed x := by
    intro set hset
    have hset : set = a ∨ set = c := by simpa using hset
    rcases hset with rfl | rfl
    · exact leavesSucceed_of_result ha
    · exact leavesSucceed_of_result hc
  have ht : Composed .add a (.set b) .absent t := ⟨6, .operator .add, .absent, rfl, rfl⟩
  have ht' : Composed .add b (.set a) .absent t' := ⟨7, .operator .add, .absent, rfl, rfl⟩
  obtain ⟨hlaws, hswaps⟩ := membership_latticeLaws (τ := ElementType)
  exact ⟨hlaw, hleaves, hlaws [a, c] s a hlaw x hleaves, .add, ht, ht',
    hswaps .add a b t t' .add ht ht' x⟩

end FuzzySet

end FuzzyAlgebra

import FuzzyAlgebra.Proofs.ElementType
import FuzzyAlgebra.Proofs.FuzzySet.Composition
import FuzzyAlgebra.Proofs.FuzzySet.Polarity

/-!
# Factoring

An operator that does not turn the order of an operand around goes through the greater and the
smaller of two degrees there, however it rounds: the greater of two sums with one term in common is
the sum with the greater term. A difference turns the order around in what it takes away, and so the
greater of two degrees makes the smaller difference. Expressions can be factored by these laws
without any degree being moved by a single unit.
-/

namespace FuzzyAlgebra

open Binary64

namespace Operator

variable {op lattice lattice' : Operator}

theorem firstPolarity_of_isBinary (hop : op.isBinary = true) (positive : Bool) :
    op.firstPolarity positive = positive := by
  cases op <;> first | rfl | cases hop

theorem secondPolarity_of_ne (hne : op ≠ difference) (positive : Bool) :
    op.secondPolarity positive = positive :=
  if_neg hne

/-! ### One operand at a time -/

theorem monotone_first (hop : op.isBinary = true) (n : Nat) :
    Monotone fun m => op.combineUnits m n 0 := by
  intro m m' hm
  apply combineUnits_le_combineUnits 0
  · rw [firstPolarity_of_isBinary hop]
    exact hm
  · cases op.secondPolarity true <;> exact le_rfl

theorem monotone_second (hop : op.isBinary = true) (hne : op ≠ difference) (m : Nat) :
    Monotone fun n => op.combineUnits m n 0 := by
  intro n n' hn
  apply combineUnits_le_combineUnits 0
  · rw [firstPolarity_of_isBinary hop]
    exact le_refl m
  · rw [secondPolarity_of_ne hne]
    exact hn

theorem antitone_difference (m : Nat) : Antitone fun n => difference.combineUnits m n 0 := by
  intro n n' hn
  exact combineUnits_le_combineUnits 0 (le_refl m) hn

end Operator

namespace FuzzySet

variable {τ : Type} [ClassHierarchy τ]

/-- The first set takes a union or an intersection for an operand, and the second one is the union
or intersection of two such sets that take its parts. -/
inductive FactoringLaw (a b c : FuzzySet τ) : FuzzySet τ → FuzzySet τ → Prop
  | first {op lattice lattice' : Operator} {u s v w t : FuzzySet τ} :
    Operator.Dual lattice lattice' → op.isBinary = true →
    Composed lattice b (.set c) .absent u → Composed op u (.set a) .absent s →
    Composed op b (.set a) .absent v → Composed op c (.set a) .absent w →
    Composed lattice v (.set w) .absent t → FactoringLaw a b c s t
  | second {op lattice lattice' : Operator} {u s v w t : FuzzySet τ} :
    Operator.Dual lattice lattice' → op.isBinary = true → op ≠ .difference →
    Composed lattice b (.set c) .absent u → Composed op a (.set u) .absent s →
    Composed op a (.set b) .absent v → Composed op a (.set c) .absent w →
    Composed lattice v (.set w) .absent t → FactoringLaw a b c s t
  | takenAway {lattice lattice' : Operator} {u s v w t : FuzzySet τ} :
    Operator.Dual lattice lattice' →
    Composed lattice b (.set c) .absent u → Composed .difference a (.set u) .absent s →
    Composed .difference a (.set b) .absent v → Composed .difference a (.set c) .absent w →
    Composed lattice' v (.set w) .absent t → FactoringLaw a b c s t

namespace FactoringLaw

variable {a b c s t : FuzzySet τ} {x : Value} (h : FactoringLaw a b c s t)
include h

theorem isPrimitive_eq_false : s.isPrimitive = false ∧ t.isPrimitive = false := by
  cases h with
  | first hdual hop _ hs _ _ ht =>
    exact ⟨hs.isPrimitive_eq_false hop, ht.isPrimitive_eq_false hdual.isBinary⟩
  | second hdual hop _ _ hs _ _ ht =>
    exact ⟨hs.isPrimitive_eq_false hop, ht.isPrimitive_eq_false hdual.isBinary⟩
  | takenAway hdual _ hs _ _ ht =>
    exact ⟨hs.isPrimitive_eq_false rfl, ht.isPrimitive_eq_false hdual.isBinary_right⟩

theorem leavesSucceed (ha : a.LeavesSucceed x) (hb : b.LeavesSucceed x) (hc : c.LeavesSucceed x) :
    s.LeavesSucceed x ∧ t.LeavesSucceed x := by
  cases h with
  | first hdual hop hu hs hv hw ht =>
    have hlattice := hdual.isBinary
    simp [hs.leavesSucceed_iff hop, hu.leavesSucceed_iff hlattice, ht.leavesSucceed_iff hlattice,
      hv.leavesSucceed_iff hop, hw.leavesSucceed_iff hop, ha, hb, hc]
  | second hdual hop _ hu hs hv hw ht =>
    have hlattice := hdual.isBinary
    simp [hs.leavesSucceed_iff hop, hu.leavesSucceed_iff hlattice, ht.leavesSucceed_iff hlattice,
      hv.leavesSucceed_iff hop, hw.leavesSucceed_iff hop, ha, hb, hc]
  | takenAway hdual hu hs hv hw ht =>
    simp [hs.leavesSucceed_iff rfl, hu.leavesSucceed_iff hdual.isBinary,
      ht.leavesSucceed_iff hdual.isBinary_right, hv.leavesSucceed_iff rfl,
      hw.leavesSucceed_iff rfl, ha, hb, hc]

theorem unitsAt_eq (x : Value) : s.unitsAt x = t.unitsAt x := by
  cases h with
  | first hdual hop hu hs hv hw ht =>
    rw [hs.unitsAt_eq hop, hu.unitsAt_eq hdual.isBinary, ht.unitsAt_eq hdual.isBinary,
      hv.unitsAt_eq hop, hw.unitsAt_eq hop]
    exact hdual.map_of_monotone (Operator.monotone_first hop _) _ _
  | second hdual hop hne hu hs hv hw ht =>
    rw [hs.unitsAt_eq hop, hu.unitsAt_eq hdual.isBinary, ht.unitsAt_eq hdual.isBinary,
      hv.unitsAt_eq hop, hw.unitsAt_eq hop]
    exact hdual.map_of_monotone (Operator.monotone_second hop hne _) _ _
  | takenAway hdual hu hs hv hw ht =>
    rw [hs.unitsAt_eq rfl, hu.unitsAt_eq hdual.isBinary, ht.unitsAt_eq hdual.isBinary_right,
      hv.unitsAt_eq rfl, hw.unitsAt_eq rfl]
    exact hdual.map_of_antitone (Operator.antitone_difference _) _ _

end FactoringLaw

/-- **Factoring is exact.** A sum or a product with a union is the union of the two sums or products,
and the same with an intersection, and so is a difference that takes a set away from either. A
difference that takes a union away is the intersection of two differences, and one that takes an
intersection away is their union. Wherever the leaves of the three sets succeed, both sides have one
and the same degree. -/
theorem membership_factoring {a b c s t : FuzzySet τ} (hlaw : FactoringLaw a b c s t) (x : Value)
    (ha : ∀ leaf ∈ a.leaves, ∃ d, (leaf.membership x).result = .ok d)
    (hb : ∀ leaf ∈ b.leaves, ∃ d, (leaf.membership x).result = .ok d)
    (hc : ∀ leaf ∈ c.leaves, ∃ d, (leaf.membership x).result = .ok d) :
    ∃ d, (s.membership x).result = .ok d ∧ (t.membership x).result = .ok d := by
  obtain ⟨hs, ht⟩ := hlaw.leavesSucceed ha hb hc
  obtain ⟨hscomposite, htcomposite⟩ := hlaw.isPrimitive_eq_false
  exact exists_common_degree hs ht hscomposite htcomposite (hlaw.unitsAt_eq x)

/-- A third of a unit less the greater of a tenth of one and negative zero: the first two are rounded
to zero, and the third has a sign that gets lost. -/
theorem membership_factoring_third_less_tenth :
    let third : Degree := .clipped (.ofRatio false 1 3) (isNaN_ofRatio false 1 3)
    let tenth : Degree := .clipped (.ofRatio false 1 10) (isNaN_ofRatio false 1 10)
    let minusZero : Degree := ⟨.negativeZero, zero_le_negativeZero, negativeZero_le_one⟩
    let a : FuzzySet ElementType := .primitive ⟨1, .text "tame", some .dog⟩ .identity
    let b : FuzzySet ElementType := .primitive ⟨2, .absent, some .animal⟩ (.const (.degree tenth))
    let c : FuzzySet ElementType := .primitive ⟨3, .absent, none⟩ (.const (.degree minusZero))
    let u := .binary ⟨4, .absent, some .animal⟩ ⟨.union, rfl⟩ b c
    let s := .binary ⟨5, .absent, some .animal⟩ ⟨.difference, rfl⟩ a u
    let v := .binary ⟨6, .absent, some .animal⟩ ⟨.difference, rfl⟩ a b
    let w := .binary ⟨7, .absent, some .dog⟩ ⟨.difference, rfl⟩ a c
    let t := .binary ⟨8, .absent, some .animal⟩ ⟨.intersection, rfl⟩ v w
    let x : Value := .degree third
    FactoringLaw a b c s t ∧ a.LeavesSucceed x ∧ b.LeavesSucceed x ∧ c.LeavesSucceed x ∧
      ∃ d, (s.membership x).result = .ok d ∧ (t.membership x).result = .ok d := by
  intro third tenth minusZero a b c u s v w t x
  have hlaw : FactoringLaw a b c s t :=
    .takenAway .unionIntersection ⟨4, .operator .union, .absent, rfl, rfl⟩
      ⟨5, .operator .difference, .absent, rfl, rfl⟩ ⟨6, .operator .difference, .absent, rfl, rfl⟩
      ⟨7, .text "Difference", .absent, rfl, rfl⟩ ⟨8, .operator .intersection, .absent, rfl, rfl⟩
  have ha : a.LeavesSucceed x := leavesSucceed_of_result rfl
  have hb : b.LeavesSucceed x := leavesSucceed_of_result rfl
  have hc : c.LeavesSucceed x := leavesSucceed_of_result rfl
  exact ⟨hlaw, ha, hb, hc, membership_factoring hlaw x ha hb hc⟩

end FuzzySet

end FuzzyAlgebra

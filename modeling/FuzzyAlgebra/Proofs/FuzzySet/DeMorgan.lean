import FuzzyAlgebra.Proofs.ElementType
import FuzzyAlgebra.Proofs.FuzzySet.Combine
import FuzzyAlgebra.Proofs.FuzzySet.Traversal
import FuzzyAlgebra.Proofs.Operator.Units

/-!
# De Morgan's laws

Complementing turns a union into an intersection of complements, and an intersection into a union.
This is exact although `1 - a` rounds: rounding is monotone, so the complement of the greater degree
is the smaller complement. Both forms visit the same leaves in the same order, so they cannot be
told apart by queries, nor can graphs that hold one in the place of the other.
-/

namespace FuzzyAlgebra

open Binary64

namespace Operator

/-- The pairs of operators that a complement exchanges. -/
inductive Dual : Operator → Operator → Prop
  | unionIntersection : Dual union intersection
  | intersectionUnion : Dual intersection union

variable {op op' : Operator}

theorem Dual.isBinary (h : Dual op op') : op.isBinary = true := by
  cases h <;> rfl

theorem Dual.isBinary_right (h : Dual op op') : op'.isBinary = true := by
  cases h <;> rfl

theorem Dual.map_of_monotone (h : Dual op op') {f : Nat → Nat} (hf : Monotone f) (m n : Nat) :
    f (op.combineUnits m n 0) = op.combineUnits (f m) (f n) 0 := by
  cases h with
  | unionIntersection => exact hf.map_max
  | intersectionUnion => exact hf.map_min

theorem Dual.map_of_antitone (h : Dual op op') {f : Nat → Nat} (hf : Antitone f) (m n : Nat) :
    f (op.combineUnits m n 0) = op'.combineUnits (f m) (f n) 0 := by
  cases h with
  | unionIntersection => exact hf.map_max
  | intersectionUnion => exact hf.map_min

theorem Dual.combineUnits_complement (h : Dual op op') (m n k₁ k₂ k₃ : Nat) :
    complement.combineUnits (op.combineUnits m n 0) 0 k₁ =
      op'.combineUnits (complement.combineUnits m 0 k₂) (complement.combineUnits n 0 k₃) 0 := by
  have hround : Antitone fun units => roundUnits (unitsPerOne - units) 1 := by
    intro units units' hle
    exact roundUnits_mono 1 (Nat.sub_le_sub_left hle unitsPerOne)
  exact h.map_of_antitone hround m n

/-- The complement, with the threshold that it does not have. -/
def complementOperation (t : Threshold complement) : UnaryOperation := ⟨complement, t, rfl⟩

theorem Dual.degree_complement (h : Dual op op') (t₁ t₂ t₃ : Threshold complement) (d e : Degree) :
    (complementOperation t₁).degree (BinaryOperation.degree ⟨op, h.isBinary⟩ d e) =
      BinaryOperation.degree ⟨op', h.isBinary_right⟩ ((complementOperation t₂).degree d)
        ((complementOperation t₃).degree e) := by
  refine Degree.eq_of_units_eq (UnaryOperation.degree_ne_negativeZero _ _)
    (BinaryOperation.degree_ne_negativeZero _ _ _) ?_
  simp only [UnaryOperation.units_degree, BinaryOperation.units_degree]
  exact h.combineUnits_complement _ _ _ _ _

end Operator

namespace FuzzySet

variable {τ : Type} {op op' : Operator} {a b s t old new : FuzzySet τ}

/-! ### Replacing parts of a graph -/

/-- The second graph is the first one with the old part replaced by the new one at some places.
Above these places the sets are other ones, so that they have labels of their own. -/
inductive Replaced (old new : FuzzySet τ) : FuzzySet τ → FuzzySet τ → Prop
  | here : Replaced old new old new
  | same (s : FuzzySet τ) : Replaced old new s s
  | unary (label label' : Label τ) (operation : UnaryOperation) {s t : FuzzySet τ} :
    Replaced old new s t → Replaced old new (.unary label operation s) (.unary label' operation t)
  | binary (label label' : Label τ) (operation : BinaryOperation) {s s' t t' : FuzzySet τ} :
    Replaced old new s t → Replaced old new s' t' →
      Replaced old new (.binary label operation s s') (.binary label' operation t t')

/-- Parts that no query can tell apart can be exchanged in every graph. -/
theorem Replaced.membership_eq (h : ∀ x, old.membership x = new.membership x)
    (hreplaced : Replaced old new s t) (x : Value) : s.membership x = t.membership x := by
  induction hreplaced with
  | here => exact h x
  | same s => rfl
  | unary label label' operation _ ih => rw [membership_unary, membership_unary, ih]
  | binary label label' operation _ _ ih ih' =>
    rw [membership_binary, membership_binary, ih, ih']

/-! ### The two forms -/

theorem membership_eq_of_dual (h : Operator.Dual op op')
    (label₁ label₂ label₃ label₄ label₅ : Label τ) (t₁ t₂ t₃ : Operator.Threshold .complement)
    (x : Value) :
    (unary label₁ (Operator.complementOperation t₁)
        (binary label₂ ⟨op, h.isBinary⟩ a b)).membership x =
      (binary label₃ ⟨op', h.isBinary_right⟩ (unary label₄ (Operator.complementOperation t₂) a)
        (unary label₅ (Operator.complementOperation t₃) b)).membership x := by
  simp only [membership_unary, membership_binary, bind_assoc, pure_bind,
    h.degree_complement t₁ t₂ t₃]

variable [ClassHierarchy τ]

/-- The set was built from its operands, under some key and some name. -/
def Combined (op : Operator) (a : FuzzySet τ) (b : Operand τ) (s : FuzzySet τ) : Prop :=
  ∃ key name, (combine key (.set a) (.operator op) b .absent name).result = .ok s

theorem Combined.exists_eq_binary (h : Combined op a (.set b) s) (hop : op.isBinary = true) :
    ∃ label, generalType a.elementType b.elementType = some label.elementType ∧
      s = .binary label ⟨op, hop⟩ a b := by
  obtain ⟨key, name, hresult⟩ := h
  obtain ⟨t, ht, rfl⟩ :=
    (result_makeComposite_binary hop).mp (result_combine_eq_ok_iff.mp hresult).1
  exact ⟨⟨key, name, t⟩, ht, rfl⟩

theorem Combined.exists_eq_complement (h : Combined .complement a (.value .absent) s) :
    ∃ label t, label.elementType = a.elementType ∧
      s = .unary label (Operator.complementOperation t) a := by
  obtain ⟨key, name, hresult⟩ := h
  obtain ⟨t, -, rfl⟩ := (result_makeComposite_unary rfl).mp (result_combine_eq_ok_iff.mp hresult).1
  exact ⟨⟨key, name, a.elementType⟩, t, rfl, rfl⟩

/-- With a name of its own a set is not refused for the names of its operands. -/
theorem Combined.of_named {b : Operand τ} {key : Nat} {name : Value}
    (hname : s.name.truth = .ok true)
    (hmade : (makeComposite key (.operator op) (.set a) b .absent name).result = .ok s) :
    Combined op a b s :=
  ⟨key, name, result_combine_eq_ok_iff.mpr ⟨hmade, _, describe_of_named hname⟩⟩

theorem exists_combined_binary (hop : op.isBinary = true) {t : Option τ}
    (ht : generalType a.elementType b.elementType = some t) :
    ∃ s, Combined op a (.set b) s ∧ s.elementType = t := by
  let label : Label τ := ⟨0, .text "combined", t⟩
  have hmade : (makeComposite label.key (.operator op) (.set a) (.set b) .absent
      label.name).result = .ok (.binary label ⟨op, hop⟩ a b) :=
    (result_makeComposite_binary hop).mpr ⟨t, ht, rfl⟩
  exact ⟨_, Combined.of_named rfl hmade, rfl⟩

theorem exists_combined_complement (a : FuzzySet τ) :
    ∃ s, Combined .complement a (.value .absent) s ∧ s.elementType = a.elementType := by
  let label : Label τ := ⟨0, .text "combined", a.elementType⟩
  have hthreshold : (Operator.complement.validateThreshold .absent).result = .ok ⟨none, rfl⟩ :=
    congrArg Traced.result (validateThreshold_absent rfl)
  have hmade : (makeComposite label.key (.operator .complement) (.set a) (.value .absent) .absent
      label.name).result = .ok (.unary label (Operator.complementOperation ⟨none, rfl⟩) a) :=
    (result_makeComposite_unary rfl).mpr ⟨_, hthreshold, rfl⟩
  exact ⟨_, Combined.of_named rfl hmade, rfl⟩

/-- The complement of a combination of two sets. -/
def IsComplementOf (op : Operator) (a b s : FuzzySet τ) : Prop :=
  ∃ u, Combined op a (.set b) u ∧ Combined .complement u (.value .absent) s

/-- The combination of the complements of two sets. -/
def IsOfComplements (op : Operator) (a b s : FuzzySet τ) : Prop :=
  ∃ a' b', Combined .complement a (.value .absent) a' ∧ Combined .complement b (.value .absent) b' ∧
    Combined op a' (.set b') s

theorem exists_isComplementOf (hop : op.isBinary = true) {t : Option τ}
    (ht : generalType a.elementType b.elementType = some t) :
    ∃ s, IsComplementOf op a b s := by
  obtain ⟨u, hu, -⟩ := exists_combined_binary hop ht
  obtain ⟨s, hs, -⟩ := exists_combined_complement u
  exact ⟨s, u, hu, hs⟩

theorem exists_isOfComplements (hop : op.isBinary = true) {t : Option τ}
    (ht : generalType a.elementType b.elementType = some t) :
    ∃ s, IsOfComplements op a b s := by
  obtain ⟨a', ha', hatype⟩ := exists_combined_complement a
  obtain ⟨b', hb', hbtype⟩ := exists_combined_complement b
  rw [← hatype, ← hbtype] at ht
  obtain ⟨s, hs, -⟩ := exists_combined_binary hop ht
  exact ⟨s, a', b', ha', hb', hs⟩

theorem IsComplementOf.agrees (h : Operator.Dual op op') {l r : FuzzySet τ}
    (hl : IsComplementOf op a b l) (hr : IsOfComplements op' a b r) :
    l.elementType = r.elementType ∧ l.leaves = r.leaves ∧ ∀ x, l.membership x = r.membership x := by
  obtain ⟨u, hcombined, hl⟩ := hl
  obtain ⟨a', b', ha', hb', hr⟩ := hr
  obtain ⟨label₂, htype, rfl⟩ := hcombined.exists_eq_binary h.isBinary
  obtain ⟨label₁, t₁, hcomplement, rfl⟩ := hl.exists_eq_complement
  obtain ⟨label₄, t₂, ha, rfl⟩ := ha'.exists_eq_complement
  obtain ⟨label₅, t₃, hb, rfl⟩ := hb'.exists_eq_complement
  obtain ⟨label₃, htype', rfl⟩ := hr.exists_eq_binary h.isBinary_right
  refine ⟨?_, rfl, membership_eq_of_dual h _ _ _ _ _ t₁ t₂ t₃⟩
  have hsame : generalType label₄.elementType label₅.elementType = some label₂.elementType := by
    rw [ha, hb, htype]
  exact hcomplement.trans (Option.some.inj (hsame.symm.trans htype'))

/-- **De Morgan's laws hold exactly.** Two sets that combine have both forms. These have one element
type and the same leaves, and every query of them has the same outcome: one degree or one fault,
with the same calls before it. The fault is that of the same leaf. In a graph of any size one form
can stand for the other. -/
theorem membership_deMorgan (hdual : Operator.Dual op op')
    (haccepted : ∃ s, Combined op a (.set b) s) :
    (∃ l, IsComplementOf op a b l) ∧ (∃ r, IsOfComplements op' a b r) ∧
    ∀ l r, IsComplementOf op a b l → IsOfComplements op' a b r →
      l.elementType = r.elementType ∧ l.leaves = r.leaves ∧
      (∀ x, l.membership x = r.membership x) ∧
      (∀ x e, (l.membership x).result = .error e →
        ∃ before leaf after, r.leaves = before ++ leaf :: after ∧
          (leaf.membership x).result = .error e ∧
          (l.membership x).calls = (before ++ [leaf]).map key ∧
          (r.membership x).calls = (before ++ [leaf]).map key) ∧
      ∀ s t, Replaced l r s t → ∀ x, s.membership x = t.membership x := by
  obtain ⟨u, hu⟩ := haccepted
  obtain ⟨label, ht, -⟩ := hu.exists_eq_binary hdual.isBinary
  refine ⟨exists_isComplementOf hdual.isBinary ht,
    exists_isOfComplements hdual.isBinary_right ht, ?_⟩
  intro l r hl hr
  obtain ⟨htype, hleaves, hmembership⟩ := hl.agrees hdual hr
  refine ⟨htype, hleaves, hmembership, ?_, fun s t hreplaced => hreplaced.membership_eq hmembership⟩
  intro x e he
  rw [hmembership x] at he ⊢
  obtain ⟨before, leaf, after, hvisited, herror, hcalls⟩ := exists_last_leaf_of_error he
  exact ⟨before, leaf, after, hvisited, herror, hcalls, hcalls⟩

/-- Dogs and animals combine, also where the second membership function always fails; either form
can be what the first set is taken from. -/
theorem membership_deMorgan_taken_from :
    let a : FuzzySet ElementType := .primitive ⟨1, .text "tame", some .dog⟩ .identity
    let b : FuzzySet ElementType := .primitive ⟨2, .absent, some .animal⟩
      (.raising "ValueError" (.text "unknown animal"))
    let complement (key : Nat) (s : FuzzySet ElementType) : FuzzySet ElementType :=
      .unary ⟨key, .absent, s.elementType⟩ ⟨.complement, ⟨none, rfl⟩, rfl⟩ s
    let l := complement 4 (.binary ⟨3, .absent, some .animal⟩ ⟨.union, rfl⟩ a b)
    let r := .binary ⟨7, .absent, some .animal⟩ ⟨.intersection, rfl⟩ (complement 5 a)
      (complement 6 b)
    let s := .binary ⟨8, .absent, some .animal⟩ ⟨.difference, rfl⟩ l a
    let t := .binary ⟨9, .absent, some .animal⟩ ⟨.difference, rfl⟩ r a
    Operator.Dual .union .intersection ∧ (∃ u, Combined .union a (.set b) u) ∧
      IsComplementOf .union a b l ∧ IsOfComplements .intersection a b r ∧ Replaced l r s t ∧
      (∀ x, l.membership x = r.membership x) ∧ ∀ x, s.membership x = t.membership x := by
  intro a b complement l r s t
  have haccepted : ∃ u, Combined .union a (.set b) u := ⟨_, 3, .absent, rfl⟩
  have hl : IsComplementOf .union a b l := ⟨_, ⟨3, .absent, rfl⟩, ⟨4, .absent, rfl⟩⟩
  have hr : IsOfComplements .intersection a b r :=
    ⟨_, _, ⟨5, .absent, rfl⟩, ⟨6, .absent, rfl⟩, ⟨7, .absent, rfl⟩⟩
  have hreplaced : Replaced l r s t := .binary _ _ _ .here (.same a)
  obtain ⟨-, -, hmembership, -, hcontext⟩ :=
    (membership_deMorgan .unionIntersection haccepted).2.2 l r hl hr
  exact ⟨.unionIntersection, haccepted, hl, hr, hreplaced, hmembership, hcontext s t hreplaced⟩

end FuzzySet

end FuzzyAlgebra

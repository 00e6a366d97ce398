import FuzzyAlgebra.Proofs.FuzzySet.Traversal
import FuzzyAlgebra.Proofs.Operator.Units

/-!
# Polarity

A complement turns the order of degrees around, and so does a difference in what it takes away. All
else keeps it. So a leaf that only ever occurs under an even number of turns can only raise the
degree of the graph when its own degree rises, and under an odd number of turns only lower it.
-/

namespace FuzzyAlgebra

open Binary64

/-- The numbers do not fall, or for a negative polarity, they do not rise. -/
def Follows (positive : Bool) (m n : Nat) : Prop := if positive then m ≤ n else n ≤ m

theorem follows_not {positive : Bool} {m n : Nat} :
    Follows (!positive) m n ↔ Follows positive n m := by
  cases positive <;> rfl

namespace Operator

variable {op : Operator} {positive : Bool} {m m' n n' : Nat}

def firstPolarity (op : Operator) (positive : Bool) : Bool :=
  if op = complement then !positive else positive

def secondPolarity (op : Operator) (positive : Bool) : Bool :=
  if op = difference then !positive else positive

theorem combineUnits_le_combineUnits (k : Nat) (hm : Follows (op.firstPolarity true) m m')
    (hn : Follows (op.secondPolarity true) n n') :
    op.combineUnits m n k ≤ op.combineUnits m' n' k := by
  cases op with
  | union => exact max_le_max hm hn
  | intersection => exact min_le_min hm hn
  | complement => exact roundUnits_mono 1 (Nat.sub_le_sub_left hm unitsPerOne)
  | add => exact min_le_min le_rfl (roundUnits_mono 1 (Nat.add_le_add hm hn))
  | multiply => exact roundUnits_mono unitsPerOne (Nat.mul_le_mul hm hn)
  | difference =>
    exact roundUnits_mono 1 ((Nat.sub_le_sub_right hm n).trans (Nat.sub_le_sub_left hn m'))
  | alphaCut =>
    simp only [combineUnits]
    split_ifs with hcut hcut'
    · exact le_rfl
    · exact absurd (hcut.trans hm) hcut'
    · exact Nat.zero_le _
    · exact le_rfl

theorem follows_combineUnits (k : Nat) (hm : Follows (op.firstPolarity positive) m m')
    (hn : Follows (op.secondPolarity positive) n n') :
    Follows positive (op.combineUnits m n k) (op.combineUnits m' n' k) := by
  cases positive with
  | true => exact combineUnits_le_combineUnits k hm hn
  | false =>
    -- with all polarities negated the two sides have changed places
    have hfirst : op.firstPolarity false = !op.firstPolarity true := by cases op <;> rfl
    have hsecond : op.secondPolarity false = !op.secondPolarity true := by cases op <;> rfl
    rw [hfirst, follows_not] at hm
    rw [hsecond, follows_not] at hn
    exact combineUnits_le_combineUnits k hm hn

end Operator

namespace FuzzySet

variable {τ : Type} {u v : FuzzySet τ → Degree}

/-- The occurrences of leaves, each with its polarity in a graph that has the given one. -/
def occurrences (positive : Bool) : FuzzySet τ → List (FuzzySet τ × Bool)
  | primitive label function => [(primitive label function, positive)]
  | unary _ operation operand => operand.occurrences (operation.operator.firstPolarity positive)
  | binary _ operation first second =>
    first.occurrences (operation.operator.firstPolarity positive) ++
      second.occurrences (operation.operator.secondPolarity positive)

/-- The graph in which every leaf has the given degree, whatever the element. -/
def withDegrees (u : FuzzySet τ → Degree) : FuzzySet τ → FuzzySet τ :=
  withFunctions fun label function => .const (.degree (u (primitive label function)))

theorem result_withDegrees (u : FuzzySet τ → Degree) (s : FuzzySet τ) (x : Value) :
    ((s.withDegrees u).membership x).result = .ok (s.valuation u) := by
  induction s with
  | primitive label function => rfl
  | unary label operation operand ih =>
    have hgraph : (unary label operation operand).withDegrees u =
        unary label operation (operand.withDegrees u) := rfl
    rw [hgraph, membership_unary, Traced.bind_of_ok ih]
    rfl
  | binary label operation first second ihfirst ihsecond =>
    have hgraph : (binary label operation first second).withDegrees u =
        binary label operation (first.withDegrees u) (second.withDegrees u) := rfl
    rw [hgraph, membership_binary, Traced.bind_of_ok ihfirst, Traced.bind_of_ok ihsecond]
    rfl

/-- The order of the leaves, each by its polarity, carries over to the graph. -/
theorem follows_valuation (s : FuzzySet τ) {positive : Bool}
    (h : ∀ o ∈ s.occurrences positive, Follows o.2 (u o.1).units (v o.1).units) :
    Follows positive (s.valuation u).units (s.valuation v).units := by
  induction s generalizing positive with
  | primitive label function => exact h _ List.mem_cons_self
  | unary label operation operand ih =>
    rw [valuation, valuation, UnaryOperation.units_degree, UnaryOperation.units_degree]
    refine Operator.follows_combineUnits _ (ih h) ?_
    cases operation.operator.secondPolarity positive <;> exact le_rfl
  | binary label operation first second ihfirst ihsecond =>
    rw [valuation, valuation, BinaryOperation.units_degree, BinaryOperation.units_degree]
    exact Operator.follows_combineUnits _
      (ihfirst fun o ho => h o (List.mem_append_left _ ho))
      (ihsecond fun o ho => h o (List.mem_append_right _ ho))

/-- **Graphs follow the polarity of their leaves.** Let the degrees of all leaves with a positive
occurrence rise or stay, and those of all leaves with a negative occurrence fall or stay, so that
leaves with both stay. Then the degree of the graph rises or stays. -/
theorem membership_le_of_polarity (s : FuzzySet τ) (u v : FuzzySet τ → Degree)
    (hpositive : ∀ leaf, (leaf, true) ∈ s.occurrences true → (u leaf).number ≤ (v leaf).number)
    (hnegative : ∀ leaf, (leaf, false) ∈ s.occurrences true → (v leaf).number ≤ (u leaf).number)
    (x : Value) :
    ∃ d e, ((s.withDegrees u).membership x).result = .ok d ∧
      ((s.withDegrees v).membership x).result = .ok e ∧ d.number ≤ e.number := by
  refine ⟨_, _, result_withDegrees u s x, result_withDegrees v s x, ?_⟩
  have hfollows : ∀ o ∈ s.occurrences true, Follows o.2 (u o.1).units (v o.1).units := by
    rintro ⟨leaf, positive⟩ ho
    cases positive with
    | true => exact Degree.number_le_iff.mp (hpositive leaf ho)
    | false => exact Degree.number_le_iff.mp (hnegative leaf ho)
  exact Degree.number_le_iff.mpr (s.follows_valuation hfollows)

/-- `(a + b) - a * ~c`: the leaf `a` has both polarities, and `c` is turned around twice. -/
theorem membership_le_of_polarity_twice_turned :
    let leaf (key : Nat) : FuzzySet ElementType := .primitive ⟨key, .absent, none⟩ .identity
    let label (key : Nat) : Label ElementType := ⟨key, .absent, none⟩
    let s : FuzzySet ElementType := .binary (label 7) ⟨.difference, rfl⟩
      (.binary (label 4) ⟨.add, rfl⟩ (leaf 1) (leaf 2))
      (.binary (label 6) ⟨.multiply, rfl⟩ (leaf 1)
        (.unary (label 5) ⟨.complement, ⟨none, rfl⟩, rfl⟩ (leaf 3)))
    let zero : Degree := ⟨0, Binary64.zero_le_zero, Binary64.zero_le_one⟩
    let half : Degree := .clipped (.ofRatio false 1 2) (isNaN_ofRatio false 1 2)
    let one : Degree := ⟨1, Binary64.zero_le_one, Binary64.one_le_one⟩
    let u : FuzzySet ElementType → Degree := fun l => if l.key = 1 then half else zero
    let v : FuzzySet ElementType → Degree := fun l => if l.key = 3 then one else half
    (∀ l, (l, true) ∈ s.occurrences true → (u l).number ≤ (v l).number) ∧
      (∀ l, (l, false) ∈ s.occurrences true → (v l).number ≤ (u l).number) ∧
      ∃ d e, ((s.withDegrees u).membership .absent).result = .ok d ∧
        ((s.withDegrees v).membership .absent).result = .ok e ∧ d.number ≤ e.number := by
  intro leaf label s zero half one u v
  have hpositive : ∀ l, (l, true) ∈ s.occurrences true → (u l).number ≤ (v l).number := by
    intro l hl
    have hl : l = leaf 1 ∨ l = leaf 2 ∨ l = leaf 3 := by
      simpa [s, occurrences, Operator.firstPolarity, Operator.secondPolarity, leaf] using hl
    rcases hl with rfl | rfl | rfl <;> decide +kernel
  have hnegative : ∀ l, (l, false) ∈ s.occurrences true → (v l).number ≤ (u l).number := by
    intro l hl
    have hl : l = leaf 1 := by
      simpa [s, occurrences, Operator.firstPolarity, Operator.secondPolarity, leaf] using hl
    rw [hl]
    decide +kernel
  exact ⟨hpositive, hnegative, membership_le_of_polarity s u v hpositive hnegative .absent⟩

end FuzzySet

end FuzzyAlgebra

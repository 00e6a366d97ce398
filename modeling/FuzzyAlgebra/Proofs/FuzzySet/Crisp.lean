import FuzzyAlgebra.Proofs.FuzzySet.Traversal
import FuzzyAlgebra.Proofs.Operator.Units

/-!
# Crisp graphs

On the degrees zero and one the operators are the connectives of Boolean logic, since rounding does
not move these two numbers. A cut gives one of them whatever it cuts, so a graph is crisp as soon as
every way down from it meets a cut or ends in a crisp leaf.
-/

namespace FuzzyAlgebra

open Binary64

namespace Degree

variable {d : Degree} {b : Bool}

/-- One for true and positive zero for false. -/
def ofBool (b : Bool) : Degree :=
  if b then ⟨1, Binary64.zero_le_one, Binary64.one_le_one⟩
  else ⟨0, Binary64.zero_le_zero, Binary64.zero_le_one⟩

/-- The degree equals one for true and zero for false; negative zero equals zero. -/
def IsTruth (d : Degree) (b : Bool) : Prop := d.number.eqv (ofBool b).number = true

instance (d : Degree) (b : Bool) : Decidable (d.IsTruth b) := inferInstanceAs (Decidable (_ = true))

/-- The degree equals zero or one. -/
def IsCrisp (d : Degree) : Prop := ∃ b, d.IsTruth b

def truthUnits (b : Bool) : Nat := if b then unitsPerOne else 0

theorem units_ofBool (b : Bool) : (ofBool b).units = truthUnits b := by
  have hrank := (ofBool b).rank_number
  cases b with
  | false => rfl
  | true => exact Int.ofNat.inj (Option.some.inj (hrank.symm.trans rank_one))

theorem ofBool_ne_negativeZero (b : Bool) : (ofBool b).number ≠ negativeZero := by
  cases b <;> decide +kernel

theorem isTruth_iff : d.IsTruth b ↔ d.units = truthUnits b := by
  rw [IsTruth, eqv, compareBy, d.rank_number, (ofBool b).rank_number, units_ofBool]
  simp

theorem eq_ofBool (hne : d.number ≠ negativeZero) (h : d.IsTruth b) : d = ofBool b :=
  eq_of_units_eq hne (ofBool_ne_negativeZero b) ((isTruth_iff.mp h).trans (units_ofBool b).symm)

end Degree

namespace Operator

open Degree

/-- The connective of an operator. A cut is the identity if its threshold is above zero. -/
def truth (op : Operator) (above a b : Bool) : Bool :=
  match op with
  | union => a || b
  | intersection => a && b
  | complement => !a
  | add => a || b
  | multiply => a && b
  | difference => a && !b
  | alphaCut => if above then a else true

theorem spacing_dvd_truthUnits (b : Bool) : spacing (truthUnits b) ∣ truthUnits b := by
  cases b with
  | false => exact Nat.dvd_zero _
  | true => exact spacing_dvd_unitsPerOne

theorem roundUnits_truthUnits_one (b : Bool) : roundUnits (truthUnits b) 1 = truthUnits b :=
  roundUnits_one_of_dvd (spacing_dvd_truthUnits b)

/-- The sum of two ones is cut off at one; the other sums are exact. -/
theorem min_roundUnits_truthUnits_add (a b : Bool) :
    min unitsPerOne (roundUnits (truthUnits a + truthUnits b) 1) = truthUnits (a || b) := by
  have hone : roundUnits unitsPerOne 1 = unitsPerOne := roundUnits_truthUnits_one true
  have hzero : roundUnits 0 1 = 0 := roundUnits_truthUnits_one false
  have htwo : unitsPerOne ≤ roundUnits (unitsPerOne + unitsPerOne) 1 :=
    hone.symm.le.trans (roundUnits_mono 1 (Nat.le_add_right _ _))
  cases a <;> cases b <;> simp [truthUnits, hone, hzero, htwo]

/-- Operators on truth values are connectives. -/
theorem combineUnits_truthUnits (op : Operator) {k : Nat} (hk : k ≤ unitsPerOne) (a b : Bool) :
    op.combineUnits (truthUnits a) (truthUnits b) k =
      truthUnits (op.truth (decide (0 < k)) a b) := by
  cases op with
  | union => cases a <;> cases b <;> simp [combineUnits, truth, truthUnits]
  | intersection => cases a <;> cases b <;> simp [combineUnits, truth, truthUnits]
  | complement =>
    have hnot : unitsPerOne - truthUnits a = truthUnits !a := by
      cases a <;> simp [truthUnits]
    rw [combineUnits, hnot, roundUnits_truthUnits_one, truth]
  | add => exact min_roundUnits_truthUnits_add a b
  | multiply =>
    have hproduct : truthUnits a * truthUnits b = truthUnits (a && b) * unitsPerOne := by
      cases a <;> cases b <;> simp [truthUnits]
    rw [combineUnits, hproduct, roundUnits_of_dvd unitsPerOne_pos (spacing_dvd_truthUnits _),
      truth]
  | difference =>
    have hsub : truthUnits a - truthUnits b = truthUnits (a && !b) := by
      cases a <;> cases b <;> simp [truthUnits]
    rw [combineUnits, hsub, roundUnits_truthUnits_one, truth]
  | alphaCut =>
    rw [combineUnits, truth]
    cases a with
    | true => simp [truthUnits, hk]
    | false =>
      -- only the threshold zero is reached by zero
      rcases Nat.eq_zero_or_pos k with rfl | hpos
      · simp [truthUnits]
      · have hnot : ¬ k ≤ 0 := Nat.not_le.mpr hpos
        simp [truthUnits, hpos, hnot]

theorem exists_combineUnits_alphaCut {op : Operator} (h : op = alphaCut) (m n k : Nat) :
    ∃ b, op.combineUnits m n k = truthUnits b := by
  subst h
  rw [combineUnits]
  split_ifs
  · exact ⟨true, rfl⟩
  · exact ⟨false, rfl⟩

end Operator

theorem UnaryOperation.degree_isTruth (operation : UnaryOperation) {d : Degree} {b : Bool}
    (h : d.IsTruth b) : (operation.degree d).IsTruth
      (operation.operator.truth (decide (0 < operation.threshold.number)) b false) := by
  have hpos : 0 < operation.threshold.number ↔ 0 < operation.threshold.units := by
    rw [lt_iff_of_rank rank_zero operation.threshold.rank_number]
    exact Int.natCast_pos
  rw [Degree.isTruth_iff] at h ⊢
  rw [operation.units_degree, h, decide_eq_decide.mpr hpos]
  exact operation.operator.combineUnits_truthUnits operation.threshold.units_le b false

theorem BinaryOperation.degree_isTruth (operation : BinaryOperation) {d e : Degree} {a b : Bool}
    (hd : d.IsTruth a) (he : e.IsTruth b) :
    (operation.degree d e).IsTruth (operation.operator.truth false a b) := by
  rw [Degree.isTruth_iff] at hd he ⊢
  rw [operation.units_degree, hd, he]
  exact operation.operator.combineUnits_truthUnits (Nat.zero_le _) a b

/-- A cut answers yes or no. -/
theorem UnaryOperation.isCrisp_of_alphaCut (operation : UnaryOperation)
    (h : operation.operator = .alphaCut) (d : Degree) : (operation.degree d).IsCrisp := by
  obtain ⟨b, hb⟩ := Operator.exists_combineUnits_alphaCut h d.units 0 operation.threshold.units
  exact ⟨b, Degree.isTruth_iff.mpr ((operation.units_degree d).trans hb)⟩

namespace FuzzySet

variable {τ : Type} {s : FuzzySet τ} {u : FuzzySet τ → Degree} {x : Value}

/-- The Boolean expression of the graph, if its leaves have the given truth values. -/
def truth (v : FuzzySet τ → Bool) : FuzzySet τ → Bool
  | primitive label function => v (primitive label function)
  | unary _ operation operand =>
    operation.operator.truth (decide (0 < operation.threshold.number)) (operand.truth v) false
  | binary _ operation first second =>
    operation.operator.truth false (first.truth v) (second.truth v)

theorem valuation_isTruth {v : FuzzySet τ → Bool}
    (h : ∀ leaf ∈ s.leaves, (u leaf).IsTruth (v leaf)) :
    (s.valuation u).IsTruth (s.truth v) := by
  induction s with
  | primitive label function => exact h _ List.mem_cons_self
  | unary label operation operand ih => exact operation.degree_isTruth (ih h)
  | binary label operation first second ihfirst ihsecond =>
    exact operation.degree_isTruth (ihfirst fun leaf hleaf => h leaf (List.mem_append_left _ hleaf))
      (ihsecond fun leaf hleaf => h leaf (List.mem_append_right _ hleaf))

/-- The way down meets a cut or ends in a crisp leaf. -/
def Settled (u : FuzzySet τ → Degree) (path : List (FuzzySet τ)) : Prop :=
  (∃ node ∈ path, node.operator? = some .alphaCut) ∨
    ∃ leaf, path.getLast? = some leaf ∧ (u leaf).IsCrisp

theorem Settled.of_cons {path : List (FuzzySet τ)} (h : Settled u (s :: path)) (hpath : path ≠ [])
    (hs : s.operator? ≠ some .alphaCut) : Settled u path := by
  rcases h with ⟨node, hnode, hcut⟩ | ⟨leaf, hlast, hleaf⟩
  · rcases List.mem_cons.mp hnode with rfl | hbelow
    · exact absurd hcut hs
    · exact .inl ⟨node, hbelow, hcut⟩
  · obtain ⟨next, rest, rfl⟩ := List.exists_cons_of_ne_nil hpath
    exact .inr ⟨leaf, hlast, hleaf⟩

theorem isCrisp_of_settled (h : ∀ path ∈ s.paths, Settled u path) : (s.valuation u).IsCrisp := by
  induction s with
  | primitive label function =>
    rcases h _ List.mem_cons_self with ⟨node, hnode, hcut⟩ | ⟨leaf, hlast, hleaf⟩
    · rw [List.mem_singleton.mp hnode] at hcut
      cases hcut
    · cases hlast
      exact hleaf
  | unary label operation operand ih =>
    by_cases hcut : operation.operator = .alphaCut
    · exact operation.isCrisp_of_alphaCut hcut _
    · have hbelow : ∀ path ∈ operand.paths, Settled u path := fun path hpath =>
        (h _ (List.mem_map_of_mem hpath)).of_cons (paths_ne_nil hpath)
          fun heq => hcut (Option.some.inj heq)
      obtain ⟨b, hb⟩ := ih hbelow
      exact ⟨_, operation.degree_isTruth hb⟩
  | binary label operation first second ihfirst ihsecond =>
    have hnotcut : (binary label operation first second).operator? ≠ some .alphaCut := by
      intro heq
      have hbinary := operation.isBinary
      rw [Option.some.inj heq] at hbinary
      cases hbinary
    have hbelow : ∀ path ∈ first.paths ++ second.paths, path ≠ [] → Settled u path :=
      fun path hpath hne => (h _ (List.mem_map_of_mem hpath)).of_cons hne hnotcut
    obtain ⟨a, ha⟩ := ihfirst fun path hpath =>
      hbelow path (List.mem_append_left _ hpath) (paths_ne_nil hpath)
    obtain ⟨b, hb⟩ := ihsecond fun path hpath =>
      hbelow path (List.mem_append_right _ hpath) (paths_ne_nil hpath)
    exact ⟨_, operation.degree_isTruth ha hb⟩

/-- **Crisp graphs are Boolean expressions.** Where every leaf is crisp, the degree of the graph is
the value of its Boolean expression: exactly zero or one, positive zero above the leaves. Where the
leaves have any degrees, it is still zero or one if every way down meets a cut or ends in a crisp
leaf. -/
theorem membership_crisp (s : FuzzySet τ) (x : Value) :
    (∀ v : FuzzySet τ → Bool,
      (∀ leaf ∈ s.leaves, ∃ d, (leaf.membership x).result = .ok d ∧ d.IsTruth (v leaf)) →
      ∃ d, (s.membership x).result = .ok d ∧ d.IsTruth (s.truth v) ∧
        (s.isPrimitive = false → d = .ofBool (s.truth v))) ∧
    ((∀ leaf ∈ s.leaves, ∃ d, (leaf.membership x).result = .ok d) →
      (∀ path ∈ s.paths, (∃ node ∈ path, node.operator? = some .alphaCut) ∨
        ∃ leaf d, path.getLast? = some leaf ∧ (leaf.membership x).result = .ok d ∧ d.IsCrisp) →
      ∃ d, (s.membership x).result = .ok d ∧ d.IsCrisp ∧
        (s.isPrimitive = false → d = .ofBool true ∨ d = .ofBool false)) := by
  refine ⟨?_, ?_⟩
  · intro v hleaves
    have hresult := result_eq_valuation fun leaf hleaf =>
      (hleaves leaf hleaf).imp fun _ hd => hd.1
    have htruth : (s.valuation (degreeAt x)).IsTruth (s.truth v) := by
      refine valuation_isTruth fun leaf hleaf => ?_
      obtain ⟨d, hd, hv⟩ := hleaves leaf hleaf
      rw [degreeAt, hd]
      exact hv
    exact ⟨_, hresult, htruth, fun hcomposite =>
      Degree.eq_ofBool (ne_negativeZero_of_composite hcomposite hresult) htruth⟩
  · intro hleaves hpaths
    have hresult := result_eq_valuation hleaves
    have hsettled : ∀ path ∈ s.paths, Settled (degreeAt x) path := by
      intro path hpath
      refine (hpaths path hpath).imp_right ?_
      rintro ⟨leaf, d, hlast, hd, hcrisp⟩
      refine ⟨leaf, hlast, ?_⟩
      rw [degreeAt, hd]
      exact hcrisp
    obtain ⟨b, hb⟩ := isCrisp_of_settled hsettled
    refine ⟨_, hresult, ⟨b, hb⟩, fun hcomposite => ?_⟩
    have heq := Degree.eq_ofBool (ne_negativeZero_of_composite hcomposite hresult) hb
    cases b with
    | true => exact .inl heq
    | false => exact .inr heq

/-- `(one + one) - ~cut(nothing, 0)`, where `nothing` is negative zero, and
`cut(half, half) | nothing`, where `half` is half a unit and rounded to zero. -/
theorem membership_crisp_with_cuts :
    let leaf (key : Nat) (d : Degree) : FuzzySet ElementType :=
      .primitive ⟨key, .absent, none⟩ (.const (.degree d))
    let label (key : Nat) : Label ElementType := ⟨key, .absent, none⟩
    let half : Degree := .clipped (.ofRatio false 1 2) (isNaN_ofRatio false 1 2)
    let one := leaf 1 (.ofBool true)
    let nothing := leaf 2 ⟨.negativeZero, zero_le_negativeZero, negativeZero_le_one⟩
    let s : FuzzySet ElementType := .binary (label 7) ⟨.difference, rfl⟩
      (.binary (label 4) ⟨.add, rfl⟩ one one)
      (.unary (label 6) ⟨.complement, ⟨none, rfl⟩, rfl⟩
        (.unary (label 5) ⟨.alphaCut, ⟨some (.ofBool false), rfl⟩, rfl⟩ nothing))
    let cut : FuzzySet ElementType :=
      .unary (label 8) ⟨.alphaCut, ⟨some half, rfl⟩, rfl⟩ (leaf 3 half)
    let t : FuzzySet ElementType := .binary (label 9) ⟨.union, rfl⟩ cut nothing
    let v : FuzzySet ElementType → Bool := fun l => l.key = 1
    (∀ leaf ∈ s.leaves, ∃ d, (leaf.membership .absent).result = .ok d ∧ d.IsTruth (v leaf)) ∧
      (∃ d, (s.membership .absent).result = .ok d ∧ d.IsTruth true ∧ d = .ofBool true) ∧
      (∀ leaf ∈ t.leaves, ∃ d, (leaf.membership .absent).result = .ok d) ∧
      (∀ path ∈ t.paths, (∃ node ∈ path, node.operator? = some .alphaCut) ∨
        ∃ leaf d, path.getLast? = some leaf ∧ (leaf.membership .absent).result = .ok d ∧
          d.IsCrisp) ∧
      ∃ d, (t.membership .absent).result = .ok d ∧ d.IsCrisp ∧
        (d = .ofBool true ∨ d = .ofBool false) := by
  intro leaf label half one nothing s cut t v
  have hone : (one.membership .absent).result = .ok _ := rfl
  have hnothing : (nothing.membership .absent).result = .ok _ := rfl
  have hhalf : ((leaf 3 half).membership .absent).result = .ok half := rfl
  have hs : ∀ l ∈ s.leaves, ∃ d, (l.membership .absent).result = .ok d ∧ d.IsTruth (v l) := by
    intro l hl
    have hl : l = one ∨ l = nothing := by simpa [s, leaves, one, nothing, leaf] using hl
    rcases hl with rfl | rfl
    · exact ⟨_, hone, by decide +kernel⟩
    · exact ⟨_, hnothing, by decide +kernel⟩
  have ht : ∀ l ∈ t.leaves, ∃ d, (l.membership .absent).result = .ok d := by
    intro l hl
    have hl : l = leaf 3 half ∨ l = nothing := by simpa [t, cut, leaves, nothing, leaf] using hl
    rcases hl with rfl | rfl
    · exact ⟨_, hhalf⟩
    · exact ⟨_, hnothing⟩
  have hpaths : ∀ path ∈ t.paths, (∃ node ∈ path, node.operator? = some .alphaCut) ∨
      ∃ l d, path.getLast? = some l ∧ (l.membership .absent).result = .ok d ∧ d.IsCrisp := by
    intro path hpath
    have hpath : path = [t, cut, leaf 3 half] ∨ path = [t, nothing] := by
      simpa [t, cut, paths, nothing, leaf] using hpath
    rcases hpath with rfl | rfl
    · exact .inl ⟨cut, List.mem_cons_of_mem _ List.mem_cons_self, rfl⟩
    · exact .inr ⟨nothing, _, rfl, hnothing, false, by decide +kernel⟩
  obtain ⟨d, hd, htruth, hexact⟩ := (membership_crisp s .absent).1 v hs
  obtain ⟨e, he, hcrisp, hends⟩ := (membership_crisp t .absent).2 ht hpaths
  exact ⟨hs, ⟨d, hd, htruth, hexact rfl⟩, ht, hpaths, ⟨e, he, hcrisp, hends rfl⟩⟩

end FuzzySet

end FuzzyAlgebra

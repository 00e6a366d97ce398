import FuzzyAlgebra.Proofs.ElementType
import FuzzyAlgebra.Proofs.FuzzySet.Composition
import FuzzyAlgebra.Proofs.FuzzySet.Crisp

/-!
# Cuts and the other operators

A cut asks whether a degree has reached its threshold, and a question like that goes through every
monotone operator. It goes through union and intersection unchanged. A product is at most the
smaller of its factors and a sum at least the greater of its terms, also after rounding, so that a
cut of a product asks for more and a cut of a sum for less.
-/

namespace FuzzyAlgebra

open Binary64

namespace Operator

variable {op op' : Operator} {m n j k : Nat}

theorem cut_mono (h : m ≤ n) (k : Nat) :
    alphaCut.combineUnits m 0 k ≤ alphaCut.combineUnits n 0 k := by
  by_cases hm : k ≤ m
  · have hn : k ≤ n := hm.trans h
    simp [combineUnits, hm, hn]
  · simp [combineUnits, hm]

theorem Dual.cut_combineUnits (h : Dual op op') (m n k : Nat) :
    alphaCut.combineUnits (op.combineUnits m n 0) 0 k =
      op.combineUnits (alphaCut.combineUnits m 0 k) (alphaCut.combineUnits n 0 k) 0 := by
  have hmono : Monotone fun units => alphaCut.combineUnits units 0 k := fun _ _ hle => cut_mono hle k
  exact h.map_of_monotone hmono m n

theorem cut_antitone (h : j ≤ k) (m : Nat) :
    alphaCut.combineUnits m 0 k ≤ alphaCut.combineUnits m 0 j := by
  by_cases hk : k ≤ m
  · have hj : j ≤ m := h.trans hk
    simp [combineUnits, hk, hj]
  · simp [combineUnits, hk]

theorem cut_cut (hpos : 0 < j) (hj : j ≤ unitsPerOne) (m k : Nat) :
    alphaCut.combineUnits (alphaCut.combineUnits m 0 k) 0 j = alphaCut.combineUnits m 0 k := by
  by_cases hk : k ≤ m
  · simp [combineUnits, hk, hj]
  · have hzero : ¬ j ≤ 0 := by omega
    simp [combineUnits, hk, hzero]

theorem cut_zero (m : Nat) : alphaCut.combineUnits m 0 0 = unitsPerOne := by
  simp [combineUnits]

theorem multiply_le_intersection (hm : spacing m ∣ m) (hn : spacing n ∣ n) (hmle : m ≤ unitsPerOne)
    (hnle : n ≤ unitsPerOne) : multiply.combineUnits m n 0 ≤ intersection.combineUnits m n 0 := by
  have hfirst : roundUnits (m * n) unitsPerOne ≤ m :=
    calc roundUnits (m * n) unitsPerOne ≤ roundUnits (m * unitsPerOne) unitsPerOne :=
          roundUnits_mono _ (Nat.mul_le_mul_left m hnle)
      _ = m := roundUnits_of_dvd unitsPerOne_pos hm
  have hsecond : roundUnits (m * n) unitsPerOne ≤ n := by
    rw [Nat.mul_comm m n]
    calc roundUnits (n * m) unitsPerOne ≤ roundUnits (n * unitsPerOne) unitsPerOne :=
          roundUnits_mono _ (Nat.mul_le_mul_left n hmle)
      _ = n := roundUnits_of_dvd unitsPerOne_pos hn
  exact le_min hfirst hsecond

theorem union_le_add (hm : spacing m ∣ m) (hn : spacing n ∣ n) (hmle : m ≤ unitsPerOne)
    (hnle : n ≤ unitsPerOne) : union.combineUnits m n 0 ≤ add.combineUnits m n 0 := by
  have hround {i : Nat} (hi : spacing i ∣ i) (hle : i ≤ m + n) : i ≤ roundUnits (m + n) 1 :=
    calc i = roundUnits i 1 := (roundUnits_one_of_dvd hi).symm
      _ ≤ roundUnits (m + n) 1 := roundUnits_mono 1 (by omega)
  have hfirst : m ≤ roundUnits (m + n) 1 := hround hm (by omega)
  have hsecond : n ≤ roundUnits (m + n) 1 := hround hn (by omega)
  simp only [combineUnits]
  omega

end Operator

namespace FuzzySet

variable {τ : Type} [ClassHierarchy τ] {op op' : Operator} {a b s l r : FuzzySet τ} {v w x : Value}
  {p q : Binary64} {cut cut' : Operator.alphaCut.Threshold}

/-! ### The thresholds as numbers -/

omit [ClassHierarchy τ] in
theorem units_of_validateThreshold
    (h : (Operator.alphaCut.validateThreshold v).result = .ok cut) (hp : v.toBinary64 = .ok p) :
    p.rank = some (cut.units : Int) := by
  have htakes := Operator.result_validateThreshold_eq_ok_iff.mp h
  obtain ⟨t, ht⟩ := cut
  cases htakes with
  | nothing hno => cases hno
  | degree _ _ hnumber =>
    obtain rfl := Except.ok.inj (hp.symm.trans hnumber)
    exact Degree.rank_number _

/-! ### Cuts of compositions and compositions of cuts -/

def Cut (v : Value) (a s : FuzzySet τ) : Prop :=
  Composed .alphaCut a (.value .absent) v s

/-- The cut of a combination of two sets. -/
def IsCutOf (op : Operator) (v : Value) (a b s : FuzzySet τ) : Prop :=
  ∃ u, Composed op a (.set b) .absent u ∧ Cut v u s

/-- The combination of the cuts of two sets. -/
def IsOfCuts (op : Operator) (v : Value) (a b s : FuzzySet τ) : Prop :=
  ∃ a' b', Cut v a a' ∧ Cut v b b' ∧ Composed op a' (.set b') .absent s

theorem cut_of_describe (h : (Operator.alphaCut.validateThreshold v).result = .ok cut)
    {label : Label τ} (htype : label.elementType = a.elementType)
    (hlabel : ∃ text, (unary label ⟨.alphaCut, cut, rfl⟩ a).describe = .ok text) :
    Cut v a (.unary label ⟨.alphaCut, cut, rfl⟩ a) := by
  obtain ⟨key, name, type⟩ := label
  obtain rfl : type = a.elementType := htype
  have hmade : (makeComposite key (.operator .alphaCut) (.set a) (.value .absent) v
      name).result = .ok (.unary ⟨key, name, a.elementType⟩ ⟨.alphaCut, cut, rfl⟩ a) :=
    (result_makeComposite_unary rfl).mpr ⟨cut, h, rfl⟩
  exact ⟨key, .operator .alphaCut, name, rfl, result_combine_eq_ok_iff.mpr ⟨hmade, hlabel⟩⟩

theorem exists_cut (h : (Operator.alphaCut.validateThreshold v).result = .ok cut)
    (a : FuzzySet τ) : ∃ s, Cut v a s ∧ s.elementType = a.elementType := by
  let label : Label τ := ⟨0, .text "cut", a.elementType⟩
  have hcut : Cut v a (.unary label ⟨.alphaCut, cut, rfl⟩ a) :=
    cut_of_describe h rfl ⟨_, describe_of_named rfl⟩
  exact ⟨_, hcut, rfl⟩

theorem exists_isCutOf (h : (Operator.alphaCut.validateThreshold v).result = .ok cut)
    (hop : op.isBinary = true) {type : Option τ}
    (htype : generalType a.elementType b.elementType = some type) : ∃ s, IsCutOf op v a b s := by
  obtain ⟨u, hu, -⟩ := exists_combined_binary hop htype
  obtain ⟨s, hs, -⟩ := exists_cut h u
  exact ⟨s, u, hu.composed, hs⟩

theorem exists_isOfCuts (h : (Operator.alphaCut.validateThreshold v).result = .ok cut)
    (hop : op.isBinary = true) {type : Option τ}
    (htype : generalType a.elementType b.elementType = some type) : ∃ s, IsOfCuts op v a b s := by
  obtain ⟨a', ha', hatype⟩ := exists_cut h a
  obtain ⟨b', hb', hbtype⟩ := exists_cut h b
  rw [← hatype, ← hbtype] at htype
  obtain ⟨s, hs, -⟩ := exists_combined_binary hop htype
  exact ⟨s, a', b', ha', hb', hs.composed⟩

theorem Cut.exists_unary (h : Cut v a s)
    (hv : (Operator.alphaCut.validateThreshold v).result = .ok cut) :
    ∃ label, s = .unary label ⟨.alphaCut, cut, rfl⟩ a := by
  obtain ⟨label, cut', -, hcut', rfl⟩ := Composed.exists_unary h rfl
  obtain rfl := Except.ok.inj (hv.symm.trans hcut')
  exact ⟨label, rfl⟩

section Degrees

variable (hv : (Operator.alphaCut.validateThreshold v).result = .ok cut)
include hv

theorem Cut.unitsAt_eq (h : Cut v a s) (x : Value) :
    s.unitsAt x = Operator.alphaCut.combineUnits (a.unitsAt x) 0 cut.units := by
  obtain ⟨label, rfl⟩ := h.exists_unary hv
  exact UnaryOperation.units_degree _ _

theorem Cut.leavesSucceed (h : Cut v a s) (ha : a.LeavesSucceed x) : s.LeavesSucceed x := by
  obtain ⟨label, rfl⟩ := h.exists_unary hv
  exact ha

theorem IsCutOf.unitsAt_eq (h : IsCutOf op v a b s) (hop : op.isBinary = true) (x : Value) :
    s.unitsAt x = Operator.alphaCut.combineUnits
      (op.combineUnits (a.unitsAt x) (b.unitsAt x) 0) 0 cut.units := by
  obtain ⟨u, hu, hs⟩ := h
  rw [hs.unitsAt_eq hv, hu.unitsAt_eq hop]

theorem IsCutOf.leavesSucceed (h : IsCutOf op v a b s) (hop : op.isBinary = true)
    (ha : a.LeavesSucceed x) (hb : b.LeavesSucceed x) : s.LeavesSucceed x := by
  obtain ⟨u, hu, hs⟩ := h
  exact hs.leavesSucceed hv ((hu.leavesSucceed_iff hop).mpr ⟨ha, hb⟩)

theorem IsOfCuts.unitsAt_eq (h : IsOfCuts op v a b s) (hop : op.isBinary = true) (x : Value) :
    s.unitsAt x = op.combineUnits (Operator.alphaCut.combineUnits (a.unitsAt x) 0 cut.units)
      (Operator.alphaCut.combineUnits (b.unitsAt x) 0 cut.units) 0 := by
  obtain ⟨a', b', ha', hb', hs⟩ := h
  rw [hs.unitsAt_eq hop, ha'.unitsAt_eq hv, hb'.unitsAt_eq hv]

theorem IsOfCuts.leavesSucceed (h : IsOfCuts op v a b s) (hop : op.isBinary = true)
    (ha : a.LeavesSucceed x) (hb : b.LeavesSucceed x) : s.LeavesSucceed x := by
  obtain ⟨a', b', ha', hb', hs⟩ := h
  exact (hs.leavesSucceed_iff hop).mpr ⟨ha'.leavesSucceed hv ha, hb'.leavesSucceed hv hb⟩

/-! ### Laws at one threshold -/

theorem IsCutOf.sameDegree (hdual : Operator.Dual op op') (hl : IsCutOf op v a b l)
    (hr : IsOfCuts op v a b r) (ha : a.LeavesSucceed x) (hb : b.LeavesSucceed x) :
    SameDegree x l r := by
  have hop := hdual.isBinary
  refine .of_units (hl.leavesSucceed hv hop ha hb) (hr.leavesSucceed hv hop ha hb) ?_
  rw [hl.unitsAt_eq hv hop, hr.unitsAt_eq hv hop, hdual.cut_combineUnits]

theorem IsCutOf.atMost_intersection (hl : IsCutOf .multiply v a b l)
    (hr : IsCutOf .intersection v a b r) (ha : a.LeavesSucceed x) (hb : b.LeavesSucceed x) :
    AtMost x l r := by
  refine .of_units (hl.leavesSucceed hv rfl ha hb) (hr.leavesSucceed hv rfl ha hb) ?_
  rw [hl.unitsAt_eq hv rfl, hr.unitsAt_eq hv rfl]
  exact Operator.cut_mono (Operator.multiply_le_intersection (a.spacing_dvd_unitsAt x)
    (b.spacing_dvd_unitsAt x) (a.unitsAt_le x) (b.unitsAt_le x)) _

theorem IsOfCuts.atMost_add (hl : IsOfCuts .union v a b l) (hr : IsCutOf .add v a b r)
    (ha : a.LeavesSucceed x) (hb : b.LeavesSucceed x) : AtMost x l r := by
  refine .of_units (hl.leavesSucceed hv rfl ha hb) (hr.leavesSucceed hv rfl ha hb) ?_
  -- the union of the cuts is the cut of the union, which is at most that of the sum
  rw [hl.unitsAt_eq hv rfl, hr.unitsAt_eq hv rfl, ← Operator.Dual.unionIntersection.cut_combineUnits]
  exact Operator.cut_mono (Operator.union_le_add (a.spacing_dvd_unitsAt x)
    (b.spacing_dvd_unitsAt x) (a.unitsAt_le x) (b.unitsAt_le x)) _

/-! ### Laws between two thresholds -/

variable (hw : (Operator.alphaCut.validateThreshold w).result = .ok cut')
  (hp : v.toBinary64 = .ok p) (hq : w.toBinary64 = .ok q)
include hw hp

include hq in
theorem Cut.atMost (hpq : p ≤ q) (hl : Cut w a l) (hr : Cut v a r) (ha : a.LeavesSucceed x) :
    AtMost x l r := by
  have hprank := units_of_validateThreshold hv hp
  have hqrank := units_of_validateThreshold hw hq
  have hunits : cut.units ≤ cut'.units := Int.ofNat_le.mp ((le_iff_of_rank hprank hqrank).mp hpq)
  refine .of_units (hl.leavesSucceed hw ha) (hr.leavesSucceed hv ha) ?_
  rw [hl.unitsAt_eq hw, hr.unitsAt_eq hv]
  exact Operator.cut_antitone hunits _

theorem Cut.sameDegree_of_pos (hpos : 0 < p) (hl : Cut w a l) (hr : Cut v l r)
    (ha : a.LeavesSucceed x) : SameDegree x r l := by
  have hprank := units_of_validateThreshold hv hp
  have hunits : 0 < cut.units := Int.ofNat_lt.mp ((lt_iff_of_rank rank_zero hprank).mp hpos)
  have hleaves := hl.leavesSucceed hw ha
  refine .of_units (hr.leavesSucceed hv hleaves) hleaves ?_
  rw [hr.unitsAt_eq hv, hl.unitsAt_eq hw]
  exact Operator.cut_cut hunits cut.units_le _ _

omit hw in
theorem Cut.eq_one_of_zero (hzero : p.eqv 0 = true) (hr : Cut v l r) (hl : l.LeavesSucceed x) :
    ∃ d, (r.membership x).result = .ok d ∧ d.number = 1 := by
  have hprank := units_of_validateThreshold hv hp
  have hunits : cut.units = 0 := Int.ofNat.inj ((eqv_iff_of_rank hprank rank_zero).mp hzero)
  obtain ⟨d, hd, hdunits⟩ := (hr.leavesSucceed hv hl).exists_degree
  rw [hr.unitsAt_eq hv, hunits, Operator.cut_zero] at hdunits
  obtain ⟨label, rfl⟩ := hr.exists_unary hv
  -- only the two zeros share their units, and no composition has negative zero
  have hne : d.number ≠ negativeZero := ne_negativeZero_of_composite rfl hd
  have hone : d = .ofBool true := Degree.eq_ofBool hne (Degree.isTruth_iff.mpr hdunits)
  exact ⟨d, hd, hone ▸ rfl⟩

end Degrees

/-- **Alpha-cut algebra.** Thresholds are compared as the floating-point numbers that they become.
Wherever the leaves succeed, cuts shrink as the threshold grows, and a cut of a cut is the inner one,
or one everywhere if the outer threshold is zero. Sets that combine have all the compositions below:
a cut goes through union and intersection, the cut of a product is at most that of the intersection,
and the union of the cuts is at most the cut of the sum. -/
theorem membership_alphaCut
    (hv : (Operator.alphaCut.validateThreshold v).result = .ok cut) (hp : v.toBinary64 = .ok p)
    (hw : (Operator.alphaCut.validateThreshold w).result = .ok cut') (hq : w.toBinary64 = .ok q) :
    (∀ a : FuzzySet τ, ∃ l r s, Cut w a l ∧ Cut v a r ∧ Cut v l s) ∧
    (∀ (a l r : FuzzySet τ) (x : Value), a.LeavesSucceed x → Cut w a l → Cut v a r → p ≤ q →
      AtMost x l r) ∧
    (∀ (a l s : FuzzySet τ) (x : Value), a.LeavesSucceed x → Cut w a l → Cut v l s →
      (0 < p → SameDegree x s l) ∧
      (p.eqv 0 = true → ∃ d, (s.membership x).result = .ok d ∧ d.number = 1)) ∧
    (∀ a b : FuzzySet τ, (∃ op u, op.isBinary = true ∧ Composed op a (.set b) .absent u) →
      ∀ op : Operator, op.isBinary = true →
        (∃ l, IsCutOf op w a b l) ∧ ∃ r, IsOfCuts op w a b r) ∧
    ∀ (a b l r : FuzzySet τ) (x : Value), a.LeavesSucceed x → b.LeavesSucceed x →
      (∀ op op', Operator.Dual op op' → IsCutOf op w a b l → IsOfCuts op w a b r →
        SameDegree x l r) ∧
      (IsCutOf .multiply w a b l → IsCutOf .intersection w a b r → AtMost x l r) ∧
      (IsOfCuts .union w a b l → IsCutOf .add w a b r → AtMost x l r) := by
  refine ⟨?_, ?_, ?_, ?_, ?_⟩
  · intro a
    obtain ⟨l, hl, -⟩ := exists_cut hw a
    obtain ⟨r, hr, -⟩ := exists_cut hv a
    obtain ⟨s, hs, -⟩ := exists_cut hv l
    exact ⟨l, r, s, hl, hr, hs⟩
  · intro a l r x ha hl hr hpq
    exact Cut.atMost hv hw hp hq hpq hl hr ha
  · intro a l s x ha hl hs
    refine ⟨fun hpos => Cut.sameDegree_of_pos hv hw hp hpos hl hs ha, fun hzero => ?_⟩
    exact Cut.eq_one_of_zero hv hp hzero hs (hl.leavesSucceed hw ha)
  · rintro a b ⟨op, u, hop, hu⟩ op' hop'
    obtain ⟨label, htype, -⟩ := hu.exists_binary hop
    exact ⟨exists_isCutOf hw hop' htype, exists_isOfCuts hw hop' htype⟩
  · intro a b l r x ha hb
    refine ⟨?_, ?_, ?_⟩
    · intro op op' hdual hl hr
      exact IsCutOf.sameDegree hw hdual hl hr ha hb
    · intro hl hr
      exact IsCutOf.atMost_intersection hw hl hr ha hb
    · intro hl hr
      exact IsOfCuts.atMost_add hw hl hr ha hb

/-- Cuts at a third, which rounds when it is stored, and at `false`, which is zero. -/
theorem membership_alphaCut_at_third :
    let third : Degree := ⟨.ofQuotient 1 3, by decide +kernel, by decide +kernel⟩
    let low : Operator.alphaCut.Threshold :=
      ⟨some ⟨0, Binary64.zero_le_zero, Binary64.zero_le_one⟩, rfl⟩
    let high : Operator.alphaCut.Threshold := ⟨some third, rfl⟩
    let v : Value := .bool false
    let w : Value := .fraction 1 3
    let a : FuzzySet ElementType := .primitive ⟨1, .absent, some .dog⟩ .identity
    let b : FuzzySet ElementType := .primitive ⟨2, .absent, some .animal⟩ .identity
    let label (key : Nat) : Label ElementType := ⟨key, .absent, some .animal⟩
    let cutAt (key : Nat) (t : Operator.alphaCut.Threshold) (c : FuzzySet ElementType) :
      FuzzySet ElementType := .unary (label key) ⟨.alphaCut, t, rfl⟩ c
    let l := cutAt 4 high (.binary (label 3) ⟨.multiply, rfl⟩ a b)
    let r := cutAt 6 high (.binary (label 5) ⟨.intersection, rfl⟩ a b)
    let s := cutAt 8 low (cutAt 7 high b)
    let x : Value := .degree third
    ((Operator.alphaCut.validateThreshold v).result = .ok low ∧ v.toBinary64 = .ok 0 ∧
      (Operator.alphaCut.validateThreshold w).result = .ok high ∧
      w.toBinary64 = .ok third.number) ∧
      a.LeavesSucceed x ∧ b.LeavesSucceed x ∧
      IsCutOf .multiply w a b l ∧ IsCutOf .intersection w a b r ∧ AtMost x l r ∧
      ∃ d, (s.membership x).result = .ok d ∧ d.number = 1 := by
  intro third low high v w a b label cutAt l r s x
  have hp : v.toBinary64 = .ok 0 := congrArg Except.ok (if_neg Bool.false_ne_true)
  have hq : w.toBinary64 = .ok third.number := by
    simp only [w, third, Value.toBinary64, Value.bounded]
    exact if_pos (by decide +kernel)
  have hlow : Operator.alphaCut.TakesThreshold v low.val := .degree rfl rfl hp
  have hv : (Operator.alphaCut.validateThreshold v).result = .ok low :=
    Operator.result_validateThreshold_eq_ok_iff.mpr hlow
  have hhigh : Operator.alphaCut.TakesThreshold w (some third) := .degree rfl rfl hq
  have hw : (Operator.alphaCut.validateThreshold w).result = .ok high :=
    Operator.result_validateThreshold_eq_ok_iff.mpr hhigh
  have ha : a.LeavesSucceed x := leavesSucceed_of_result rfl
  have hb : b.LeavesSucceed x := leavesSucceed_of_result rfl
  have hl : IsCutOf .multiply w a b l :=
    ⟨_, ⟨3, .operator .multiply, .absent, rfl, rfl⟩, cut_of_describe hw rfl ⟨_, rfl⟩⟩
  have hr : IsCutOf .intersection w a b r :=
    ⟨_, ⟨5, .operator .intersection, .absent, rfl, rfl⟩, cut_of_describe hw rfl ⟨_, rfl⟩⟩
  have hinner : Cut w b (cutAt 7 high b) := cut_of_describe hw rfl ⟨_, rfl⟩
  have houter : Cut v (cutAt 7 high b) s := cut_of_describe hv rfl ⟨_, rfl⟩
  obtain ⟨-, -, hcuts, -, hpairs⟩ := membership_alphaCut (τ := ElementType) hv hp hw hq
  exact ⟨⟨hv, hp, hw, hq⟩, ha, hb, hl, hr, (hpairs a b l r x ha hb).2.1 hl hr,
    (hcuts b _ s x hb hinner houter).2 rfl⟩

end FuzzySet

end FuzzyAlgebra

import FuzzyAlgebra.Proofs.FuzzySet.AlphaCut
import FuzzyAlgebra.Proofs.FuzzySet.Lattice

/-!
# Order and boundary laws

Rounding keeps the order of two numbers and leaves a number alone that is representable. So the
degrees that the operators give to one pair of sets stay in the order of the exact results, a
product below an intersection and a sum above a union. An operand of degree zero or one leaves the
other one as it is, or complements it, or settles the result without it.
-/

namespace FuzzyAlgebra

open Binary64

namespace Operator

open Degree

variable {op op' : Operator} {m n : Nat}

/-! ### The order of the operators -/

/-- Whatever the operands, the first operator gives at most the degree of the second. -/
inductive Ordered : Operator → Operator → Prop
  | productIntersection : Ordered multiply intersection
  | intersectionUnion : Ordered intersection union
  | unionSum : Ordered union add

theorem Ordered.isBinary (h : Ordered op op') : op.isBinary = true := by
  cases h <;> rfl

theorem Ordered.isBinary_right (h : Ordered op op') : op'.isBinary = true := by
  cases h <;> rfl

theorem Ordered.combineUnits_le (h : Ordered op op') (hm : spacing m ∣ m) (hn : spacing n ∣ n)
    (hmle : m ≤ unitsPerOne) (hnle : n ≤ unitsPerOne) :
    op.combineUnits m n 0 ≤ op'.combineUnits m n 0 := by
  cases h with
  | productIntersection => exact multiply_le_intersection hm hn hmle hnle
  | intersectionUnion => exact min_le_max
  | unionSum => exact union_le_add hm hn hmle hnle

theorem difference_le_intersection (hm : spacing m ∣ m) (hmle : m ≤ unitsPerOne) (n : Nat) :
    difference.combineUnits m n 0 ≤
      intersection.combineUnits m (complement.combineUnits n 0 0) 0 := by
  have hfirst : roundUnits (m - n) 1 ≤ m :=
    calc roundUnits (m - n) 1 ≤ roundUnits m 1 := roundUnits_mono 1 (Nat.sub_le m n)
      _ = m := roundUnits_one_of_dvd hm
  have hsecond : roundUnits (m - n) 1 ≤ roundUnits (unitsPerOne - n) 1 :=
    roundUnits_mono 1 (Nat.sub_le_sub_right hmle n)
  exact le_min hfirst hsecond

/-! ### Operands of zero and one -/

/-- The truth value whose degree changes nothing. The degree of the other one absorbs every
other. -/
def neutral : Operator → Bool
  | intersection => true
  | multiply => true
  | _ => false

theorem Commutes.combineUnits_neutral (h : Commutes op) (hm : spacing m ∣ m)
    (hle : m ≤ unitsPerOne) : op.combineUnits m (truthUnits op.neutral) 0 = m := by
  cases h with
  | union => exact Nat.max_zero m
  | intersection => exact Nat.min_eq_left hle
  | add =>
    calc min unitsPerOne (roundUnits m 1) = min unitsPerOne m := by rw [roundUnits_one_of_dvd hm]
      _ = m := Nat.min_eq_right hle
  | multiply => exact roundUnits_of_dvd unitsPerOne_pos hm

theorem Commutes.combineUnits_absorbing (h : Commutes op) (hle : m ≤ unitsPerOne) :
    op.combineUnits m (truthUnits !op.neutral) 0 = truthUnits !op.neutral := by
  cases h with
  | union => exact Nat.max_eq_right hle
  | intersection => exact Nat.min_zero m
  | add =>
    have hone : roundUnits unitsPerOne 1 = unitsPerOne :=
      roundUnits_one_of_dvd spacing_dvd_unitsPerOne
    have hsum : unitsPerOne ≤ roundUnits (m + unitsPerOne) 1 :=
      hone.symm.le.trans (roundUnits_mono 1 (Nat.le_add_left unitsPerOne m))
    exact Nat.min_eq_left hsum
  | multiply => exact roundUnits_zero unitsPerOne_pos

theorem difference_zero (hm : spacing m ∣ m) :
    difference.combineUnits m (truthUnits false) 0 = m :=
  roundUnits_one_of_dvd hm

theorem difference_of_le (h : m ≤ n) : difference.combineUnits m n 0 = truthUnits false := by
  rw [combineUnits, Nat.sub_eq_zero_of_le h, roundUnits_zero Nat.one_pos]
  rfl

end Operator

namespace FuzzySet

variable {τ : Type} [ClassHierarchy τ]

/-- The two sets are composed of one pair of sets, the first one by an operator that gives less. -/
inductive OrderLaw (a b : FuzzySet τ) : FuzzySet τ → FuzzySet τ → Prop
  | operators {op op' : Operator} {s t : FuzzySet τ} : Operator.Ordered op op' →
    Composed op a (.set b) .absent s → Composed op' a (.set b) .absent t → OrderLaw a b s t
  | difference {n s t : FuzzySet τ} : Composed .complement b (.value .absent) .absent n →
    Composed .difference a (.set b) .absent s → Composed .intersection a (.set n) .absent t →
    OrderLaw a b s t

/-- The two sets have one degree where that of `c` is the truth value. -/
inductive NeutralLaw (a c : FuzzySet τ) : Bool → FuzzySet τ → FuzzySet τ → Prop
  | right {op : Operator} {s : FuzzySet τ} : op.Commutes → Composed op a (.set c) .absent s →
    NeutralLaw a c op.neutral s a
  | left {op : Operator} {s : FuzzySet τ} : op.Commutes → Composed op c (.set a) .absent s →
    NeutralLaw a c op.neutral s a
  | lessZero {s : FuzzySet τ} : Composed .difference a (.set c) .absent s →
    NeutralLaw a c false s a
  | fromOne {s t : FuzzySet τ} : Composed .difference c (.set a) .absent s →
    Composed .complement a (.value .absent) .absent t → NeutralLaw a c true s t

/-- The set has the degree of the second truth value where that of `c` is the first one. -/
inductive AbsorbingLaw (a c : FuzzySet τ) : Bool → FuzzySet τ → Bool → Prop
  | right {op : Operator} {s : FuzzySet τ} : op.Commutes → Composed op a (.set c) .absent s →
    AbsorbingLaw a c (!op.neutral) s (!op.neutral)
  | left {op : Operator} {s : FuzzySet τ} : op.Commutes → Composed op c (.set a) .absent s →
    AbsorbingLaw a c (!op.neutral) s (!op.neutral)
  | lessOne {s : FuzzySet τ} : Composed .difference a (.set c) .absent s →
    AbsorbingLaw a c true s false
  | fromZero {s : FuzzySet τ} : Composed .difference c (.set a) .absent s →
    AbsorbingLaw a c false s false

variable {op : Operator} {a b c n s t : FuzzySet τ} {u v : Bool} {x : Value}

theorem Composed.leavesSucceed_complement (h : Composed .complement b (.value .absent) .absent n)
    (hb : b.LeavesSucceed x) : n.LeavesSucceed x := by
  obtain ⟨label, cut, -, -, rfl⟩ := h.exists_unary rfl
  exact hb

theorem Composed.unitsAt_complement (h : Composed .complement b (.value .absent) .absent n)
    (x : Value) : n.unitsAt x = Operator.complement.combineUnits (b.unitsAt x) 0 0 := by
  obtain ⟨label, cut, -, -, rfl⟩ := h.exists_unary rfl
  exact UnaryOperation.units_degree _ _

theorem OrderLaw.atMost (h : OrderLaw a b s t) (ha : a.LeavesSucceed x) (hb : b.LeavesSucceed x) :
    AtMost x s t := by
  cases h with
  | operators hop hs ht =>
    refine .of_units ((hs.leavesSucceed_iff hop.isBinary).mpr ⟨ha, hb⟩)
      ((ht.leavesSucceed_iff hop.isBinary_right).mpr ⟨ha, hb⟩) ?_
    rw [hs.unitsAt_eq hop.isBinary, ht.unitsAt_eq hop.isBinary_right]
    exact hop.combineUnits_le (a.spacing_dvd_unitsAt x) (b.spacing_dvd_unitsAt x) (a.unitsAt_le x)
      (b.unitsAt_le x)
  | difference hn hs ht =>
    refine .of_units ((hs.leavesSucceed_iff rfl).mpr ⟨ha, hb⟩)
      ((ht.leavesSucceed_iff rfl).mpr ⟨ha, hn.leavesSucceed_complement hb⟩) ?_
    rw [hs.unitsAt_eq rfl, ht.unitsAt_eq rfl, hn.unitsAt_complement]
    exact Operator.difference_le_intersection (a.spacing_dvd_unitsAt x) (a.unitsAt_le x) _

/-! ### Constant operands -/

/-- The set has the degree zero or one of the truth value at the element; negative zero counts as
zero. -/
def HasTruth (x : Value) (c : FuzzySet τ) (v : Bool) : Prop :=
  ∃ d, (c.membership x).result = .ok d ∧ d.IsTruth v

omit [ClassHierarchy τ] in
theorem HasTruth.leavesSucceed (h : HasTruth x c v) : c.LeavesSucceed x := by
  obtain ⟨d, hd, -⟩ := h
  exact leavesSucceed_of_result hd

omit [ClassHierarchy τ] in
theorem HasTruth.unitsAt_eq (h : HasTruth x c v) : c.unitsAt x = Degree.truthUnits v := by
  obtain ⟨d, hd, htruth⟩ := h
  obtain ⟨e, he, hunits⟩ := (leavesSucceed_of_result hd).exists_degree
  obtain rfl := Except.ok.inj (hd.symm.trans he)
  rw [← hunits, Degree.isTruth_iff.mp htruth]

/-- A composition has positive zero or one, where its units are those of a truth value. -/
theorem Composed.result_eq_ofBool (h : Composed op a (.set b) .absent s)
    (hop : op.isBinary = true) (ha : a.LeavesSucceed x) (hb : b.LeavesSucceed x)
    (hunits : op.combineUnits (a.unitsAt x) (b.unitsAt x) 0 = Degree.truthUnits v) :
    (s.membership x).result = .ok (.ofBool v) := by
  obtain ⟨d, hd, hdunits⟩ := ((h.leavesSucceed_iff hop).mpr ⟨ha, hb⟩).exists_degree
  have htruth : d.IsTruth v := by
    rw [Degree.isTruth_iff, hdunits, h.unitsAt_eq hop, hunits]
  have hne := ne_negativeZero_of_composite (h.isPrimitive_eq_false hop) hd
  rw [hd, Degree.eq_ofBool hne htruth]

theorem NeutralLaw.sameDegree (h : NeutralLaw a c v s t) (ha : a.LeavesSucceed x)
    (hc : HasTruth x c v) : SameDegree x s t := by
  have hleaves := hc.leavesSucceed
  have hunits := hc.unitsAt_eq
  have hspacing := a.spacing_dvd_unitsAt x
  have hle := a.unitsAt_le x
  cases h with
  | right hop hs =>
    refine .of_units ((hs.leavesSucceed_iff hop.isBinary).mpr ⟨ha, hleaves⟩) ha ?_
    rw [hs.unitsAt_eq hop.isBinary, hunits, hop.combineUnits_neutral hspacing hle]
  | left hop hs =>
    refine .of_units ((hs.leavesSucceed_iff hop.isBinary).mpr ⟨hleaves, ha⟩) ha ?_
    rw [hs.unitsAt_eq hop.isBinary, hunits, hop.combineUnits_comm,
      hop.combineUnits_neutral hspacing hle]
  | lessZero hs =>
    refine .of_units ((hs.leavesSucceed_iff rfl).mpr ⟨ha, hleaves⟩) ha ?_
    rw [hs.unitsAt_eq rfl, hunits, Operator.difference_zero hspacing]
  | fromOne hs ht =>
    refine .of_units ((hs.leavesSucceed_iff rfl).mpr ⟨hleaves, ha⟩)
      (ht.leavesSucceed_complement ha) ?_
    rw [hs.unitsAt_eq rfl, hunits, ht.unitsAt_complement]
    rfl

theorem AbsorbingLaw.result_eq (h : AbsorbingLaw a c v s u) (ha : a.LeavesSucceed x)
    (hc : HasTruth x c v) : (s.membership x).result = .ok (.ofBool u) := by
  have hleaves := hc.leavesSucceed
  have hunits := hc.unitsAt_eq
  have hle := a.unitsAt_le x
  cases h with
  | right hop hs =>
    apply hs.result_eq_ofBool hop.isBinary ha hleaves
    rw [hunits, hop.combineUnits_absorbing hle]
  | left hop hs =>
    apply hs.result_eq_ofBool hop.isBinary hleaves ha
    rw [hunits, hop.combineUnits_comm, hop.combineUnits_absorbing hle]
  | lessOne hs =>
    apply hs.result_eq_ofBool rfl ha hleaves
    rw [hunits]
    exact Operator.difference_of_le hle
  | fromZero hs =>
    apply hs.result_eq_ofBool rfl hleaves ha
    rw [hunits]
    exact Operator.difference_of_le (Nat.zero_le _)

/-- Sets that some operator combines are combined by each, in either order, and with a complement
in place of one of them. -/
theorem exists_composed (hop : op.isBinary = true) (h : Composed op a (.set b) .absent s) :
    (∀ op' : Operator, op'.isBinary = true →
      (∃ t, Composed op' a (.set b) .absent t) ∧ ∃ t, Composed op' b (.set a) .absent t) ∧
    ∃ n t, Composed .complement b (.value .absent) .absent n ∧
      Composed .intersection a (.set n) .absent t := by
  obtain ⟨label, htype, -⟩ := h.exists_binary hop
  refine ⟨?_, ?_⟩
  · intro op' hop'
    obtain ⟨type, hswapped⟩ :=
      exists_generalType_iff.mpr (exists_generalType_iff.mp ⟨_, htype⟩).symm
    obtain ⟨t, ht, -⟩ := exists_combined_binary hop' htype
    obtain ⟨t', ht', -⟩ := exists_combined_binary hop' hswapped
    exact ⟨⟨t, ht.composed⟩, t', ht'.composed⟩
  · obtain ⟨n, hn, hntype⟩ := exists_combined_complement b
    rw [← hntype] at htype
    have hbinary : Operator.intersection.isBinary = true := rfl
    obtain ⟨t, ht, -⟩ := exists_combined_binary hbinary htype
    exact ⟨n, t, hn.composed, ht.composed⟩

/-- **Order and boundary laws.** Two sets that combine have every composition named here. Wherever
their leaves succeed, the degree of the product is at most that of the intersection, which is at
most that of the union, which is at most that of the sum, and the degree of the difference is at
most that of the intersection with the complement. Where one of them has degree zero or one, a
composition with the other one has the degree of that one, or the degree of its complement, or is
exactly zero or one. A set less itself is zero. -/
theorem membership_bounds (a b : FuzzySet τ) :
    ((∃ op s, op.isBinary = true ∧ Composed op a (.set b) .absent s) →
      (∀ op : Operator, op.isBinary = true →
        (∃ s, Composed op a (.set b) .absent s) ∧ ∃ s, Composed op b (.set a) .absent s) ∧
      ∃ n t, Composed .complement b (.value .absent) .absent n ∧
        Composed .intersection a (.set n) .absent t) ∧
    ∀ x : Value, a.LeavesSucceed x →
      (b.LeavesSucceed x → ∀ s t, OrderLaw a b s t → AtMost x s t) ∧
      (∀ v, HasTruth x b v → ∀ s t, NeutralLaw a b v s t → SameDegree x s t) ∧
      (∀ v, HasTruth x b v → ∀ s u, AbsorbingLaw a b v s u →
        (s.membership x).result = .ok (.ofBool u)) ∧
      ∀ s, Composed .difference a (.set a) .absent s →
        (s.membership x).result = .ok (.ofBool false) := by
  refine ⟨?_, ?_⟩
  · rintro ⟨op, s, hop, hs⟩
    exact exists_composed hop hs
  · intro x ha
    refine ⟨?_, ?_, ?_, ?_⟩
    · intro hb s t hlaw
      exact hlaw.atMost ha hb
    · intro v hv s t hlaw
      exact hlaw.sameDegree ha hv
    · intro v hv s u hlaw
      exact hlaw.result_eq ha hv
    · intro s hs
      exact hs.result_eq_ofBool rfl ha ha (Operator.difference_of_le le_rfl)

/-- A third and a tenth of a unit, which are rounded to zero, beside negative zero and one. -/
theorem membership_bounds_third_tenth :
    let third : Degree := .clipped (.ofRatio false 1 3) (isNaN_ofRatio false 1 3)
    let tenth : Degree := .clipped (.ofRatio false 1 10) (isNaN_ofRatio false 1 10)
    let minusZero : Degree := ⟨.negativeZero, zero_le_negativeZero, negativeZero_le_one⟩
    let a : FuzzySet ElementType := .primitive ⟨1, .text "tame", some .dog⟩ .identity
    let b : FuzzySet ElementType := .primitive ⟨2, .absent, some .animal⟩ (.const (.degree tenth))
    let z : FuzzySet ElementType := .primitive ⟨3, .absent, none⟩ (.const (.degree minusZero))
    let o : FuzzySet ElementType := .primitive ⟨4, .absent, none⟩ (.const (.degree (.ofBool true)))
    let n : FuzzySet ElementType := .unary ⟨5, .absent, some .animal⟩
      ⟨.complement, ⟨none, rfl⟩, rfl⟩ b
    let less := .binary ⟨6, .absent, some .animal⟩ ⟨.difference, rfl⟩ a b
    let both := .binary ⟨7, .absent, some .animal⟩ ⟨.intersection, rfl⟩ a n
    let same := .binary ⟨8, .absent, some .dog⟩ ⟨.difference, rfl⟩ a z
    let full := .binary ⟨9, .absent, some .dog⟩ ⟨.add, rfl⟩ o a
    let empty := .binary ⟨10, .absent, some .dog⟩ ⟨.difference, rfl⟩ a a
    let x : Value := .degree third
    a.LeavesSucceed x ∧ b.LeavesSucceed x ∧ HasTruth x z false ∧ HasTruth x o true ∧
      OrderLaw a b less both ∧ AtMost x less both ∧
      NeutralLaw a z false same a ∧ SameDegree x same a ∧
      AbsorbingLaw a o true full true ∧ (full.membership x).result = .ok (.ofBool true) ∧
      Composed .difference a (.set a) .absent empty ∧
      (empty.membership x).result = .ok (.ofBool false) ∧
      (∃ op s, op.isBinary = true ∧ Composed op a (.set b) .absent s) ∧
      ∃ s, Composed .multiply b (.set a) .absent s := by
  intro third tenth minusZero a b z o n less both same full empty x
  have ha : a.LeavesSucceed x := leavesSucceed_of_result rfl
  have hb : b.LeavesSucceed x := leavesSucceed_of_result rfl
  have hz : HasTruth x z false := ⟨_, rfl, by decide +kernel⟩
  have ho : HasTruth x o true := ⟨_, rfl, by decide +kernel⟩
  have hless : Composed .difference a (.set b) .absent less :=
    ⟨6, .operator .difference, .absent, rfl, rfl⟩
  have horder : OrderLaw a b less both := .difference ⟨5, .operator .complement, .absent, rfl, rfl⟩
    hless ⟨7, .text "Intersection", .absent, rfl, rfl⟩
  have hneutral : NeutralLaw a z false same a :=
    .lessZero ⟨8, .operator .difference, .absent, rfl, rfl⟩
  have habsorbing : AbsorbingLaw a o true full true :=
    .left .add ⟨9, .operator .add, .absent, rfl, rfl⟩
  have hempty : Composed .difference a (.set a) .absent empty :=
    ⟨10, .operator .difference, .absent, rfl, rfl⟩
  have haccepted : ∃ op s, op.isBinary = true ∧ Composed op a (.set b) .absent s :=
    ⟨_, _, rfl, hless⟩
  obtain ⟨hexist, hdegrees⟩ := membership_bounds a b
  obtain ⟨hatMost, -, -, hself⟩ := hdegrees x ha
  have hzero := ((membership_bounds a z).2 x ha).2.1 false hz same a hneutral
  have hone := ((membership_bounds a o).2 x ha).2.2.1 true ho full true habsorbing
  exact ⟨ha, hb, hz, ho, horder, hatMost hb less both horder, hneutral, hzero, habsorbing, hone,
    hempty, hself empty hempty, haccepted, ((hexist haccepted).1 .multiply rfl).2⟩

end FuzzySet

end FuzzyAlgebra

import FuzzyAlgebra.Proofs.FuzzySet.ElementType
import FuzzyAlgebra.Proofs.Operator.Threshold

/-!
# Which combinations are accepted

A combination is checked in stages: the operator, both operands, their number, the threshold, their
element types and at last the label. What passes all of them is made as it was asked for. Each stage
fails by name, but for a few gaps between them, where something goes wrong that no check looked for.
-/

namespace FuzzyAlgebra.FuzzySet

variable {τ : Type} [ClassHierarchy τ] {op : Operator} {key : Nat} {name operator threshold : Value}
  {first second : Operand τ} {a s : FuzzySet τ}

/-! ### What fits together -/

omit [ClassHierarchy τ] in
/-- A binary operator takes a set as its second operand, and a unary one takes nothing. -/
inductive TakesSecond (op : Operator) : Operand τ → Prop
  | set (b : FuzzySet τ) : op.isBinary = true → TakesSecond op (.set b)
  | nothing : op.isBinary = false → TakesSecond op (.value .absent)

/-- The operands are the sets of the list, as many as the operator takes, over comparable types. -/
inductive Fits (op : Operator) : Operand τ → Operand τ → List (FuzzySet τ) → Prop
  | pair (a b : FuzzySet τ) : op.isBinary = true → Comparable a.elementType b.elementType →
    Fits op (.set a) (.set b) [a, b]
  | alone (a : FuzzySet τ) : op.isBinary = false → Fits op (.set a) (.value .absent) [a]

/-- What no check of a combination looks for. -/
inductive Gap (first : Operand τ) (operator : Value) (second : Operand τ) (threshold name : Value) :
    Mishap → Prop
  /-- A value that cannot be written into the message about it. -/
  | unwritable (v : Value) :
    v = operator ∨ first = .value v ∨ second = .value v ∨ v = threshold →
    v.isWritable = false → Gap first operator second threshold name .malformed
  /-- A threshold of a cut that has no place among the floating-point numbers. -/
  | tooLarge (op : Operator) : Operator.ofValue operator = .ok op → op.requiresThreshold = true →
    threshold.isReal = true → threshold.toBinary64 = .error .tooLarge →
    Gap first operator second threshold name .tooLarge
  /-- The first operand is left out, and all else fits. -/
  | missing (op : Operator) (cut : Option Degree) : Operator.ofValue operator = .ok op →
    first = .value .absent → TakesSecond op second → op.TakesThreshold threshold cut →
    Gap first operator second threshold name .noSuchMember
  /-- A label has to be made out of an operand whose name is no text. -/
  | unlabelled (a : FuzzySet τ) : name.truth = .ok false → first = .set a ∨ second = .set a →
    a.name.truth = .ok true → (∀ text, a.name ≠ .text text) →
    Gap first operator second threshold name .wrongType
  /-- A name that is neither one nor none: an array of several items, or of none. -/
  | unclear (v : Value) : v = name ∨ (∃ a, (first = .set a ∨ second = .set a) ∧ v = a.name) →
    v.truth = .error .malformed → Gap first operator second threshold name .malformed

theorem Fits.eq_or_eq {sets : List (FuzzySet τ)} (h : Fits op first second sets) (ha : a ∈ sets) :
    first = .set a ∨ second = .set a := by
  cases h with
  | pair b c =>
    rcases List.mem_cons.mp ha with rfl | hc
    · exact .inl rfl
    · exact .inr (congrArg _ (List.mem_singleton.mp hc).symm)
  | alone b => exact .inl (congrArg _ (List.mem_singleton.mp ha).symm)

/-! ### What is accepted -/

theorem fits_of_makeComposite
    (h : (makeComposite key operator first second threshold name).result = .ok s) :
    ∃ op, Operator.ofValue operator = .ok op ∧ s.operator? = some op ∧
      Fits op first second s.operands ∧ op.TakesThreshold threshold s.threshold? ∧
      s.key = key ∧ s.name = name := by
  rw [makeComposite, Traced.result_bind_eq_ok_iff] at h
  obtain ⟨op, hop, h⟩ := h
  obtain ⟨found, hfirst, h⟩ := Traced.result_bind_eq_ok_iff.mp h
  obtain ⟨found', hsecond, h⟩ := Traced.result_bind_eq_ok_iff.mp h
  refine ⟨op, hop, ?_⟩
  split at h
  · rename_i hbinary
    obtain ⟨a, b, cut, t, rfl, rfl, hcut, ht, rfl⟩ := result_makeBinary_eq_ok_iff.mp h
    obtain rfl := operandSet_eq_ok_some_iff.mp hfirst
    obtain rfl := operandSet_eq_ok_some_iff.mp hsecond
    have htakes := Operator.result_validateThreshold_eq_ok_iff.mp hcut
    rw [htakes.eq_none (Operator.requiresThreshold_of_isBinary hbinary)] at htakes
    exact ⟨rfl, .pair a b hbinary (exists_generalType_iff.mp ⟨t, ht⟩), htakes, rfl, rfl⟩
  · rename_i hunary
    obtain ⟨rfl, a, cut, rfl, hcut, rfl⟩ := result_makeUnary_eq_ok_iff.mp h
    obtain rfl := operandSet_eq_ok_some_iff.mp hfirst
    obtain rfl := operandSet_eq_ok_none_iff.mp hsecond
    exact ⟨rfl, .alone a (Bool.eq_false_iff.mpr hunary),
      Operator.result_validateThreshold_eq_ok_iff.mp hcut, rfl, rfl⟩

theorem exists_makeComposite_of_fits (key : Nat) (name : Value) {sets : List (FuzzySet τ)}
    {t : Option Degree} (hop : Operator.ofValue operator = .ok op)
    (hfits : Fits op first second sets) (htakes : op.TakesThreshold threshold t) :
    ∃ s, (makeComposite key operator first second threshold name).result = .ok s ∧
      s.operands = sets ∧ s.name = name := by
  obtain ⟨cut, rfl⟩ := htakes.exists_cut
  have hcut := Operator.result_validateThreshold_eq_ok_iff.mpr htakes
  have hresolved : (Traced.ofExcept (Operator.ofValue operator)).result = .ok op := hop
  rw [makeComposite, Traced.bind_of_ok hresolved]
  cases hfits with
  | pair a b hbinary hcomparable =>
    obtain ⟨t, ht⟩ := exists_generalType_iff.mpr hcomparable
    rw [Traced.bind_of_ok rfl, Traced.bind_of_ok rfl, dif_pos hbinary]
    exact ⟨_, result_makeBinary_eq_ok_iff.mpr ⟨a, b, cut, t, rfl, rfl, hcut, ht, rfl⟩, rfl, rfl⟩
  | alone a hunary =>
    rw [Traced.bind_of_ok rfl, Traced.bind_of_ok rfl, dif_neg (Bool.eq_false_iff.mp hunary)]
    exact ⟨_, result_makeUnary_eq_ok_iff.mpr ⟨rfl, a, cut, rfl, hcut, rfl⟩, rfl, rfl⟩

theorem exists_combine_iff :
    (∃ s, (combine key first operator second threshold name).result = .ok s) ↔
      ∃ op sets cut, Operator.ofValue operator = .ok op ∧ Fits op first second sets ∧
        op.TakesThreshold threshold cut ∧ Labelled name sets := by
  simp only [result_combine_eq_ok_iff, exists_describe_iff]
  constructor
  · rintro ⟨s, hmade, hlabel⟩
    obtain ⟨op, hop, -, hfits, htakes, -, rfl⟩ := fits_of_makeComposite hmade
    exact ⟨op, s.operands, s.threshold?, hop, hfits, htakes, hlabel⟩
  · rintro ⟨op, sets, cut, hop, hfits, htakes, hlabel⟩
    obtain ⟨s, hmade, rfl, rfl⟩ := exists_makeComposite_of_fits key name hop hfits htakes
    exact ⟨s, hmade, hlabel⟩

/-! ### What fails -/

omit [ClassHierarchy τ] in
theorem unwritable_of_operandSet {o : Operand τ} {m : Mishap}
    (h : (operandSet op o).result = .error (.mishap m)) :
    m = .malformed ∧ ∃ v, o = .value v ∧ v.isWritable = false := by
  cases o with
  | set a => cases h
  | value v =>
    by_cases habsent : v = .absent
    · subst habsent
      cases h
    · rw [result_operandSet_value habsent] at h
      split at h
      · cases h
      · rename_i hunwritable
        cases h
        exact ⟨rfl, v, rfl, Bool.eq_false_iff.mpr hunwritable⟩

omit [ClassHierarchy τ] in
theorem absent_of_present {found : Option (FuzzySet τ)} {m : Mishap}
    (h : (present found).result = .error (.mishap m)) : m = .noSuchMember ∧ found = none := by
  cases found with
  | some a => cases h
  | none =>
    cases h
    exact ⟨rfl, rfl⟩

theorem combinedType_ne_mishap {t u : Option τ} {m : Mishap} :
    (combinedType op t u).result ≠ .error (.mishap m) := by
  unfold combinedType
  cases generalType t u with
  | some v => exact nofun
  | none => exact nofun

omit [ClassHierarchy τ] in
theorem gap_of_validateThreshold {m : Mishap} (hop : Operator.ofValue operator = .ok op)
    (h : (op.validateThreshold threshold).result = .error (.mishap m)) :
    Gap first operator second threshold name m := by
  cases Operator.refused_of_validateThreshold h with
  | tooLarge hreal hlarge =>
    exact .tooLarge op hop (Operator.requiresThreshold_of_tooLarge h) hreal hlarge
  | unwritable hunwritable =>
    exact .unwritable threshold (.inr (.inr (.inr rfl))) hunwritable

omit [ClassHierarchy τ] in
/-- What a threshold and a first operand are needed for goes wrong in one of three places. -/
theorem mishap_of_threshold_and_first {found : Option (FuzzySet τ)} {m : Mishap}
    {rest : op.Threshold → FuzzySet τ → Traced (FuzzySet τ)}
    (hrest : ∀ cut a, (rest cut a).result ≠ .error (.mishap m))
    (h : (op.validateThreshold threshold >>= fun cut => present found >>= rest cut).result =
      .error (.mishap m)) :
    (op.validateThreshold threshold).result = .error (.mishap m) ∨
      m = .noSuchMember ∧ found = none ∧
        ∃ cut, (op.validateThreshold threshold).result = .ok cut := by
  rcases Traced.result_bind_eq_error_iff.mp h with hcut | ⟨cut, hcut, hchecked⟩
  · exact .inl hcut
  rcases Traced.result_bind_eq_error_iff.mp hchecked with hmissing | ⟨a, -, hmade⟩
  · obtain ⟨hm, hfound⟩ := absent_of_present hmissing
    exact .inr ⟨hm, hfound, cut, hcut⟩
  · exact absurd hmade (hrest cut a)

theorem mishap_of_makeBinary {operation : BinaryOperation} {found found' : Option (FuzzySet τ)}
    {m : Mishap}
    (h : (makeBinary key name operation found found' threshold).result = .error (.mishap m)) :
    (∃ b, found' = some b) ∧
      ((operation.operator.validateThreshold threshold).result = .error (.mishap m) ∨
        m = .noSuchMember ∧ found = none ∧
          ∃ cut, (operation.operator.validateThreshold threshold).result = .ok cut) := by
  cases found' with
  | none => cases h
  | some b =>
    refine ⟨⟨b, rfl⟩, mishap_of_threshold_and_first (fun cut a hmade => ?_) h⟩
    rcases Traced.result_bind_eq_error_iff.mp hmade with htypes | ⟨t, -, hpure⟩
    · exact combinedType_ne_mishap htypes
    · cases hpure

omit [ClassHierarchy τ] in
theorem mishap_of_makeUnary {hunary : op.isBinary = false} {found found' : Option (FuzzySet τ)}
    {m : Mishap}
    (h : (makeUnary key name op hunary found found' threshold).result = .error (.mishap m)) :
    found' = none ∧
      ((op.validateThreshold threshold).result = .error (.mishap m) ∨
        m = .noSuchMember ∧ found = none ∧
          ∃ cut, (op.validateThreshold threshold).result = .ok cut) := by
  cases found' with
  | some b => cases h
  | none =>
    refine ⟨rfl, mishap_of_threshold_and_first (fun cut a hmade => ?_) h⟩
    cases hmade

theorem gap_of_makeComposite {m : Mishap}
    (h : (makeComposite key operator first second threshold name).result = .error (.mishap m)) :
    Gap first operator second threshold name m := by
  rw [makeComposite, Traced.result_bind_eq_error_iff] at h
  rcases h with hop | ⟨op, hop, hrest⟩
  · obtain ⟨rfl, hunwritable⟩ := Operator.unwritable_of_ofValue hop
    exact .unwritable operator (.inl rfl) hunwritable
  rcases Traced.result_bind_eq_error_iff.mp hrest with hfirst | ⟨found, hfirst, hrest⟩
  · obtain ⟨rfl, v, hv, hunwritable⟩ := unwritable_of_operandSet hfirst
    exact .unwritable v (.inr (.inl hv)) hunwritable
  rcases Traced.result_bind_eq_error_iff.mp hrest with hsecond | ⟨found', hsecond, hmade⟩
  · obtain ⟨rfl, v, hv, hunwritable⟩ := unwritable_of_operandSet hsecond
    exact .unwritable v (.inr (.inr (.inl hv))) hunwritable
  -- both operands are sets or left out, so only the threshold and a missing set can go wrong
  have hrest : TakesSecond op second ∧
      ((op.validateThreshold threshold).result = .error (.mishap m) ∨
        m = .noSuchMember ∧ found = none ∧
          ∃ cut, (op.validateThreshold threshold).result = .ok cut) := by
    split at hmade
    · rename_i hbinary
      obtain ⟨⟨b, rfl⟩, hcases⟩ := mishap_of_makeBinary hmade
      exact ⟨operandSet_eq_ok_some_iff.mp hsecond ▸ .set b hbinary, hcases⟩
    · rename_i hunary
      obtain ⟨rfl, hcases⟩ := mishap_of_makeUnary hmade
      have hop' := Bool.eq_false_iff.mpr hunary
      exact ⟨operandSet_eq_ok_none_iff.mp hsecond ▸ .nothing hop', hcases⟩
  obtain ⟨htakes, hcut | ⟨rfl, rfl, cut, hcut⟩⟩ := hrest
  · exact gap_of_validateThreshold hop hcut
  · exact .missing op cut.val hop (operandSet_eq_ok_none_iff.mp hfirst) htakes
      (Operator.result_validateThreshold_eq_ok_iff.mp hcut)

theorem gap_of_combine {m : Mishap}
    (h : (combine key first operator second threshold name).result = .error (.mishap m)) :
    Gap first operator second threshold name m := by
  rw [combine, Traced.result_bind_eq_error_iff] at h
  rcases h with hmade | ⟨s, hmade, h⟩
  · exact gap_of_makeComposite hmade
  rcases Traced.result_bind_eq_error_iff.mp h with hlabel | ⟨label, -, h⟩
  · cases hdescribe : s.describe with
    | ok label =>
      rw [hdescribe] at hlabel
      cases hlabel
    | error m' =>
      rw [hdescribe] at hlabel
      cases hlabel
      obtain ⟨op, -, -, hfits, -, -, rfl⟩ := fits_of_makeComposite hmade
      obtain hunclear | ⟨hfalse, a, ha, hunnameable⟩ := unlabelled_of_describe hdescribe
      · obtain rfl := Value.malformed_of_truth hunclear
        exact .unclear s.name (.inl rfl) hunclear
      · cases hunnameable with
        | unclear hunclear =>
          obtain rfl := Value.malformed_of_truth hunclear
          exact .unclear a.name (.inr ⟨a, hfits.eq_or_eq ha, rfl⟩) hunclear
        | noText htrue hother => exact .unlabelled a hfalse (hfits.eq_or_eq ha) htrue hother
  · rcases Traced.result_bind_eq_error_iff.mp h with hlogged | ⟨-, -, hpure⟩
    · rw [Traced.result_logQuoting] at hlogged
      cases hlogged
    · cases hpure

/-- An operand that is no set is told so before anything else is looked at but the operator. -/
theorem exists_operandNotASet {v : Value} (hop : Operator.ofValue operator = .ok op)
    (hwritable : ∀ w, first = .value w ∨ second = .value w → w.isWritable = true)
    (hv : first = .value v ∨ second = .value v) (habsent : v ≠ .absent) :
    ∃ typeName, (combine key first operator second threshold name).result =
      .error (.failure (.operandNotASet op typeName)) := by
  have hfails {e : Fault}
      (h : (operandSet op first).result = .error e ∨
        ∃ found, (operandSet op first).result = .ok found ∧
          (operandSet op second).result = .error e) :
      (combine key first operator second threshold name).result = .error e := by
    rw [combine, Traced.result_bind_eq_error_iff, makeComposite, Traced.result_bind_eq_error_iff]
    refine .inl (.inr ⟨op, hop, Traced.result_bind_eq_error_iff.mpr ?_⟩)
    rcases h with hfirst | ⟨found, hfirst, hsecond⟩
    · exact .inl hfirst
    · exact .inr ⟨found, hfirst, Traced.result_bind_eq_error_iff.mpr (.inl hsecond)⟩
  have hrefused {w : Value} (hw : w ≠ .absent) (hgiven : first = .value w ∨ second = .value w) :
      (operandSet op (.value w : Operand τ)).result =
        .error (.failure (.operandNotASet op w.typeName)) := by
    rw [result_operandSet_value hw, if_pos (hwritable w hgiven)]
  by_cases hfirst : ∃ w, first = .value w ∧ w ≠ .absent
  · obtain ⟨w, hw, hne⟩ := hfirst
    exact ⟨w.typeName, hfails (.inl (hw ▸ hrefused hne (.inl hw)))⟩
  · have hsecond : second = .value v := hv.resolve_left fun h => hfirst ⟨v, h, habsent⟩
    have hfound : ∃ found, (operandSet op first).result = .ok found := by
      cases first with
      | set a => exact ⟨some a, rfl⟩
      | value w =>
        have hw : w = .absent := Classical.not_not.mp fun hne => hfirst ⟨w, rfl, hne⟩
        exact ⟨none, operandSet_eq_ok_none_iff.mpr (congrArg _ hw)⟩
    obtain ⟨found, hfound⟩ := hfound
    exact ⟨v.typeName, hfails (.inr ⟨found, hfound, hsecond ▸ hrefused habsent (.inr hsecond)⟩)⟩

/-- Nothing looks for a first operand that is left out, until it is used. -/
theorem result_combine_of_missing {cut : Option Degree} (hop : Operator.ofValue operator = .ok op)
    (hsecond : TakesSecond op second) (htakes : op.TakesThreshold threshold cut) :
    (combine key (.value .absent) operator second threshold name).result =
      .error (.mishap .noSuchMember) := by
  obtain ⟨cut, rfl⟩ := htakes.exists_cut
  have hcut := Operator.result_validateThreshold_eq_ok_iff.mpr htakes
  have hresolved : (Traced.ofExcept (Operator.ofValue operator)).result = .ok op := hop
  have hfirst : (operandSet op (.value .absent : Operand τ)).result = .ok none := rfl
  rw [combine, Traced.result_bind_eq_error_iff, makeComposite, Traced.bind_of_ok hresolved,
    Traced.bind_of_ok hfirst]
  left
  cases hsecond with
  | set b hbinary =>
    rw [Traced.bind_of_ok rfl, dif_pos hbinary]
    exact Traced.result_bind_eq_error_iff.mpr (.inr ⟨cut, hcut, rfl⟩)
  | nothing hunary =>
    rw [Traced.bind_of_ok rfl, dif_neg (Bool.eq_false_iff.mp hunary)]
    exact Traced.result_bind_eq_error_iff.mpr (.inr ⟨cut, hcut, rfl⟩)

/-- **The contract of combinations.** A combination is accepted if and only if the operator
resolves, the operands are as many sets as it takes, over comparable types, and the threshold is a
number in range for a cut and nothing for every other operator, provided that a label can be made
out of the names. It then is this operator on exactly these operands. An operand that is no set is
a type mismatch. All that is refused fails by name but for the gaps, of which a first operand that
is left out is one. -/
theorem combine_outcome (key : Nat) (first second : Operand τ) (operator threshold name : Value) :
    let outcome := (combine key first operator second threshold name).result
    ((∃ s, outcome = .ok s) ↔
      ∃ op sets cut, Operator.ofValue operator = .ok op ∧ Fits op first second sets ∧
        op.TakesThreshold threshold cut ∧ Labelled name sets) ∧
    (∀ s, outcome = .ok s →
      ∃ op, Operator.ofValue operator = .ok op ∧ s.operator? = some op ∧
        Fits op first second s.operands ∧ op.TakesThreshold threshold s.threshold? ∧
        s.key = key ∧ s.name = name) ∧
    (∀ op v, Operator.ofValue operator = .ok op →
      (∀ w, first = .value w ∨ second = .value w → w.isWritable = true) →
      first = .value v ∨ second = .value v → v ≠ .absent →
      ∃ f, outcome = .error (.failure f) ∧ f.kind = .typeMismatch ∧ f.code = .operatorNotASet) ∧
    (∀ m, outcome = .error (.mishap m) → Gap first operator second threshold name m) ∧
    (outcome = .error (.mishap .noSuchMember) ↔
      first = .value .absent ∧ ∃ op cut, Operator.ofValue operator = .ok op ∧
        TakesSecond op second ∧ op.TakesThreshold threshold cut) := by
  intro outcome
  refine ⟨exists_combine_iff, fun s hs => ?_, fun op v hop hwritable hv habsent => ?_,
    fun m => gap_of_combine, fun h => ?_, ?_⟩
  · exact fits_of_makeComposite (result_combine_eq_ok_iff.mp hs).1
  · obtain ⟨typeName, h⟩ := exists_operandNotASet hop hwritable hv habsent
    exact ⟨_, h, rfl, rfl⟩
  · cases gap_of_combine h with
    | missing op cut hop hfirst hsecond htakes => exact ⟨hfirst, op, cut, hop, hsecond, htakes⟩
  · rintro ⟨rfl, op, cut, hop, hsecond, htakes⟩
    exact result_combine_of_missing hop hsecond htakes

/-- The complement of nothing ends in a fault that is no failure. -/
theorem combine_outcome_of_nothing :
    (combine 1 (.value .absent : Operand ElementType) (.operator .complement) (.value .absent)
      .absent .absent).result = .error (.mishap .noSuchMember) :=
  result_combine_of_missing rfl (.nothing rfl) (.nothing rfl)

/-- Puppies are united with animals, and not with a text. -/
theorem combine_outcome_puppies :
    let puppies : FuzzySet ElementType := .primitive ⟨1, .text "young", some .puppy⟩ .identity
    let animals : FuzzySet ElementType := .primitive ⟨2, .absent, some .animal⟩ .identity
    (∃ s, (combine 3 (.set puppies) (.text "Union") (.set animals) .absent
        .absent).result = .ok s) ∧
      ∃ f, (combine 3 (.set puppies) (.text "Union") (.value (.text "animals")) .absent
        .absent).result = .error (.failure f) ∧
        f.kind = .typeMismatch ∧ f.code = .operatorNotASet := by
  intro puppies animals
  have hop : Operator.ofValue (.text "Union") = .ok .union := rfl
  have hcomparable : Comparable puppies.elementType animals.elementType :=
    .inr (.inr ⟨.puppy, .animal, rfl, rfl, .inl rfl⟩)
  have hpuppies : puppies.name.IsOptionalText := .inr ⟨"young", rfl⟩
  have hanimals : animals.name.IsOptionalText := .inl rfl
  have hlabelled : Labelled .absent [puppies, animals] := labelled_of_optionalText (.inl rfl)
    (List.forall_mem_cons.mpr ⟨hpuppies, fun a ha => List.mem_singleton.mp ha ▸ hanimals⟩)
  have hwritable (w : Value)
      (h : Operand.set puppies = .value w ∨
        (.value (.text "animals") : Operand ElementType) = .value w) : w.isWritable = true := by
    rcases h with h | h
    · cases h
    · cases h
      rfl
  refine ⟨(combine_outcome 3 _ _ _ _ _).1.mpr ?_, ?_⟩
  · exact ⟨.union, _, none, hop, .pair puppies animals rfl hcomparable, .nothing rfl, hlabelled⟩
  · exact (combine_outcome 3 _ _ _ _ _).2.2.1 .union _ hop hwritable (.inr rfl) nofun

end FuzzyAlgebra.FuzzySet

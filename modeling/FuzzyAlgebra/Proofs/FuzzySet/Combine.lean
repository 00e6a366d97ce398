import FuzzyAlgebra.FuzzySet.Combine
import FuzzyAlgebra.Proofs.Operator.Degrees

/-!
# What building gives

A combination that is accepted is the operator applied to the very operands that were given. Two
sets are accepted together when one of their element types is above the other, or one of them has
none.
-/

namespace FuzzyAlgebra

/-- Every value counts as true or as false, but for some arrays, whose content does not say. -/
theorem Value.malformed_of_truth {v : Value} {m : Mishap} (h : v.truth = .error m) :
    m = .malformed := by
  fun_induction truth v with
  | case8 kind shape item ih => exact ih h
  | case9 => exact (Except.error.inj h).symm
  | _ => cases h

/-- A name as it is meant to be: a text, or none. -/
def Value.IsOptionalText (v : Value) : Prop := v = .absent ∨ ∃ text, v = .text text

namespace FuzzySet

variable {τ : Type} {op : Operator} {key : Nat} {name : Value} {a b s : FuzzySet τ}

/-! ### Labels -/

theorem shownName_eq (s : FuzzySet τ) :
    s.label.shownName = s.name.truth.map fun named => if named then some s.name else none := rfl

theorem describe_of_named (h : s.name.truth = .ok true) : s.describe = .ok s.name := by
  rw [describe, shownName_eq, h]
  rfl

/-- The name of the set can stand in a label: it counts as none, or is a text. -/
def Nameable (s : FuzzySet τ) : Prop := s.name.truth = .ok false ∨ ∃ text, s.name = .text text

/-- Why the name cannot stand in a label. -/
inductive Unnameable (s : FuzzySet τ) : Mishap → Prop
  /-- The name is neither one nor none. -/
  | unclear {m : Mishap} : s.name.truth = .error m → Unnameable s m
  /-- The name is one, and no text. -/
  | noText : s.name.truth = .ok true → (∀ text, s.name ≠ .text text) → Unnameable s .wrongType

theorem Nameable.not_unnameable {m : Mishap} (h : s.Nameable) : ¬ s.Unnameable m := by
  rintro (htruth | ⟨htruth, hother⟩)
  · obtain hfalse | ⟨text, htext⟩ := h
    · rw [hfalse] at htruth
      cases htruth
    · rw [htext] at htruth
      cases htruth
  · obtain hfalse | ⟨text, htext⟩ := h
    · rw [hfalse] at htruth
      cases htruth
    · exact hother text htext

theorem innerName_cases (s : FuzzySet τ) :
    (s.Nameable ∧ ∃ text, s.innerName = .ok text) ∨
      ∃ m, s.Unnameable m ∧ s.innerName = .error m := by
  rw [innerName, shownName_eq]
  cases htruth : s.name.truth with
  | error m => exact .inr ⟨m, .unclear htruth, rfl⟩
  | ok named =>
    cases named with
    | false => exact .inl ⟨.inl htruth, s.className, rfl⟩
    | true =>
      by_cases htext : ∃ text, s.name = .text text
      · obtain ⟨text, hname⟩ := htext
        rw [hname]
        exact .inl ⟨.inr ⟨text, hname⟩, text, rfl⟩
      · have hother : ∀ text, s.name ≠ .text text := fun text h => htext ⟨text, h⟩
        refine .inr ⟨.wrongType, .noText htruth hother, ?_⟩
        cases hname : s.name with
        | text text => exact absurd hname (hother text)
        | _ => rfl

theorem mapM_innerName_cases (sets : List (FuzzySet τ)) :
    ((∀ a ∈ sets, a.Nameable) ∧ ∃ texts, sets.mapM innerName = .ok texts) ∨
      ∃ m, (∃ a ∈ sets, a.Unnameable m) ∧ sets.mapM innerName = .error m := by
  induction sets with
  | nil => exact .inl ⟨nofun, [], rfl⟩
  | cons a sets ih =>
    rw [List.mapM_cons, List.forall_mem_cons]
    rcases innerName_cases a with ⟨hnameable, text, ha⟩ | ⟨m, hunnameable, ha⟩
    · rw [ha]
      rcases ih with ⟨hall, texts, htexts⟩ | ⟨m, ⟨b, hb, hunnameable⟩, hfault⟩
      · rw [htexts]
        exact .inl ⟨⟨hnameable, hall⟩, text :: texts, rfl⟩
      · rw [hfault]
        exact .inr ⟨m, ⟨b, List.mem_cons_of_mem _ hb, hunnameable⟩, rfl⟩
    · rw [ha]
      exact .inr ⟨m, ⟨a, List.mem_cons_self, hunnameable⟩, rfl⟩

/-- A label can be made for a combination: it has a name, or it has none and its operands can be
named in its label. -/
def Labelled (name : Value) (sets : List (FuzzySet τ)) : Prop :=
  name.truth = .ok true ∨ name.truth = .ok false ∧ ∀ a ∈ sets, a.Nameable

theorem describe_cases (s : FuzzySet τ) :
    (Labelled s.name s.operands ∧ ∃ v, s.describe = .ok v) ∨
      ∃ m, (s.name.truth = .error m ∨
          s.name.truth = .ok false ∧ ∃ a ∈ s.operands, a.Unnameable m) ∧
        s.describe = .error m := by
  cases htruth : s.name.truth with
  | error m =>
    rw [describe, shownName_eq, htruth]
    exact .inr ⟨m, .inl rfl, rfl⟩
  | ok named =>
    cases named with
    | true => exact .inl ⟨.inl htruth, _, describe_of_named htruth⟩
    | false =>
      rw [describe, shownName_eq, htruth]
      rcases mapM_innerName_cases s.operands with ⟨hall, texts, htexts⟩ | ⟨m, hnone, hfault⟩
      · refine .inl ⟨.inr ⟨htruth, hall⟩, ?_⟩
        cases hop : s.operator? with
        | none => exact ⟨_, rfl⟩
        | some op =>
          rw [htexts]
          exact ⟨_, rfl⟩
      · cases hop : s.operator? with
        | none =>
          obtain ⟨a, ha, -⟩ := hnone
          cases s with
          | primitive label f => cases ha
          | unary label operation a => cases hop
          | binary label operation a b => cases hop
        | some op =>
          rw [hfault]
          exact .inr ⟨m, .inr ⟨rfl, hnone⟩, rfl⟩

theorem exists_describe_iff :
    (∃ v, s.describe = .ok v) ↔ Labelled s.name s.operands := by
  rcases describe_cases s with ⟨hlabelled, hlabel⟩ | ⟨m, hunlabelled, hfault⟩
  · exact iff_of_true hlabel hlabelled
  · rw [hfault]
    refine iff_of_false nofun ?_
    obtain hunclear | ⟨hfalse, a, ha, hunnameable⟩ := hunlabelled
    · simp [Labelled, hunclear]
    · rintro (htrue | ⟨-, hall⟩)
      · rw [hfalse] at htrue
        cases htrue
      · exact (hall a ha).not_unnameable hunnameable

theorem labelled_pair_comm : Labelled name [a, b] ↔ Labelled name [b, a] := by
  have hoperands : (∀ c ∈ [a, b], c.Nameable) ↔ ∀ c ∈ [b, a], c.Nameable := by simp [and_comm]
  rw [Labelled, Labelled, hoperands]

theorem unlabelled_of_describe {m : Mishap} (h : s.describe = .error m) :
    s.name.truth = .error m ∨ s.name.truth = .ok false ∧ ∃ a ∈ s.operands, a.Unnameable m := by
  rcases describe_cases s with ⟨-, v, hlabel⟩ | ⟨m', hunlabelled, hfault⟩
  · rw [hlabel] at h
    cases h
  · rw [hfault] at h
    cases h
    exact hunlabelled

theorem nameable_of_optionalText (h : s.name.IsOptionalText) : s.Nameable :=
  h.imp (fun habsent => congrArg Value.truth habsent) id

theorem labelled_of_optionalText {sets : List (FuzzySet τ)} (hname : name.IsOptionalText)
    (hsets : ∀ a ∈ sets, a.name.IsOptionalText) : Labelled name sets := by
  have hall : ∀ a ∈ sets, a.Nameable := fun a ha => nameable_of_optionalText (hsets a ha)
  obtain rfl | ⟨text, rfl⟩ := hname
  · exact .inr ⟨rfl, hall⟩
  · cases hempty : text.isEmpty with
    | true => exact .inr ⟨by rw [Value.truth, hempty, Bool.not_true], hall⟩
    | false => exact .inl (by rw [Value.truth, hempty, Bool.not_false])

/-! ### Operands -/

/-- What is given for a set and is none fails; only if it cannot be written, the failure is not
named. -/
theorem result_operandSet_value {v : Value} (h : v ≠ .absent) :
    (operandSet op (.value v : Operand τ)).result =
      if v.isWritable then .error (.failure (.operandNotASet op v.typeName))
      else .error (.mishap .malformed) := by
  rw [operandSet]
  · exact Traced.result_failQuoting _ _ _ _ _
  · exact h

theorem operandSet_eq_ok_some_iff {o : Operand τ} :
    (operandSet op o).result = .ok (some a) ↔ o = .set a := by
  cases o with
  | set b => simp [operandSet]
  | value v =>
    by_cases habsent : v = .absent
    · subst habsent
      exact ⟨nofun, nofun⟩
    · rw [result_operandSet_value habsent]
      split
      · exact ⟨nofun, nofun⟩
      · exact ⟨nofun, nofun⟩

theorem present_eq_ok_iff {found : Option (FuzzySet τ)} :
    (present found).result = .ok a ↔ found = some a := by
  cases found with
  | some b => simp [present]
  | none => simp [present, Traced.mishap, Traced.stop]

theorem operandSet_eq_ok_none_iff {o : Operand τ} :
    (operandSet op o).result = .ok none ↔ o = .value .absent := by
  cases o with
  | set b => simp [operandSet]
  | value v =>
    by_cases habsent : v = .absent
    · subst habsent
      exact ⟨fun _ => rfl, fun _ => rfl⟩
    · rw [result_operandSet_value habsent]
      split
      · exact ⟨nofun, fun h => absurd (Operand.value.inj h) habsent⟩
      · exact ⟨nofun, fun h => absurd (Operand.value.inj h) habsent⟩

theorem result_makeUnary_eq_ok_iff {hop : op.isBinary = false}
    {first second : Option (FuzzySet τ)} {threshold : Value} :
    (makeUnary key name op hop first second threshold).result = .ok s ↔
      second = none ∧ ∃ a cut, first = some a ∧
        (op.validateThreshold threshold).result = .ok cut ∧
        s = .unary ⟨key, name, a.elementType⟩ ⟨op, cut, hop⟩ a := by
  cases second with
  | some b => exact ⟨nofun, fun h => nomatch h.1⟩
  | none =>
    simp only [makeUnary, Traced.result_bind_eq_ok_iff, present_eq_ok_iff, true_and]
    constructor
    · rintro ⟨cut, hcut, a, hfirst, hpure⟩
      cases hpure
      exact ⟨a, cut, hfirst, hcut, rfl⟩
    · rintro ⟨a, cut, hfirst, hcut, rfl⟩
      exact ⟨cut, hcut, a, hfirst, rfl⟩

/-- What is logged about a new set asks for its label, and changes nothing else. -/
theorem result_announced_eq_ok_iff {made : Traced (FuzzySet τ)} {text : Value → Thunk String} :
    (do
      let s ← made
      let label ← Traced.ofMishap s.describe
      Traced.logQuoting [label] .debug Channel.sets (text label)
      pure s).result = .ok s ↔ made.result = .ok s ∧ ∃ label, s.describe = .ok label := by
  rw [Traced.result_bind_eq_ok_iff]
  constructor
  · rintro ⟨s', hmade, hrest⟩
    obtain ⟨label, hlabel, hlogged⟩ := Traced.result_bind_eq_ok_iff.mp hrest
    obtain ⟨-, -, hpure⟩ := Traced.result_bind_eq_ok_iff.mp hlogged
    cases hpure
    exact ⟨hmade, label, Traced.result_ofMishap_eq_ok_iff.mp hlabel⟩
  · rintro ⟨hmade, label, hlabel⟩
    refine ⟨s, hmade, Traced.result_bind_eq_ok_iff.mpr ⟨label, ?_, ?_⟩⟩
    · exact Traced.result_ofMishap_eq_ok_iff.mpr hlabel
    · exact Traced.result_bind_eq_ok_iff.mpr ⟨(), Traced.result_logQuoting _ _ _ _, rfl⟩

theorem result_ofFunction_eq_ok_iff {function : FunctionArgument} {tag : TagArgument τ} :
    (ofFunction key function tag name).result = .ok s ↔
      (makePrimitive key function tag name).result = .ok s ∧ ∃ label, s.describe = .ok label :=
  result_announced_eq_ok_iff

theorem exists_of_ofFunction {function : FunctionArgument} {tag : TagArgument τ}
    (h : (ofFunction key function tag name).result = .ok s) :
    ∃ t f, s = .primitive ⟨key, name, t⟩ f := by
  obtain ⟨hmade, -⟩ := result_ofFunction_eq_ok_iff.mp h
  cases function with
  | other typeName =>
    obtain ⟨_, -, hmishap⟩ := Traced.result_bind_eq_ok_iff.mp hmade
    cases hmishap
  | function f =>
    obtain ⟨elementType, -, hpure⟩ := Traced.result_bind_eq_ok_iff.mp hmade
    cases hpure
    exact ⟨elementType, f, rfl⟩

/-! ### Combinations -/

variable [ClassHierarchy τ]

theorem result_combine_eq_ok_iff {first second : Operand τ} {operator threshold : Value} :
    (combine key first operator second threshold name).result = .ok s ↔
      (makeComposite key operator first second threshold name).result = .ok s ∧
        ∃ label, s.describe = .ok label :=
  result_announced_eq_ok_iff

theorem result_combinedType_eq_ok_iff {first second t : Option τ} :
    (combinedType op first second).result = .ok t ↔ generalType first second = some t := by
  unfold combinedType
  cases generalType first second with
  | some t' =>
    exact ⟨fun h => congrArg some (Except.ok.inj h),
      fun h => congrArg Except.ok (Option.some.inj h)⟩
  | none => exact ⟨nofun, nofun⟩

theorem result_makeBinary_eq_ok_iff {operation : BinaryOperation}
    {first second : Option (FuzzySet τ)} {threshold : Value} :
    (makeBinary key name operation first second threshold).result = .ok s ↔
      ∃ a b cut t, first = some a ∧ second = some b ∧
        (operation.operator.validateThreshold threshold).result = .ok cut ∧
        generalType a.elementType b.elementType = some t ∧
        s = .binary ⟨key, name, t⟩ operation a b := by
  cases second with
  | none => exact ⟨nofun, fun ⟨_, _, _, _, _, h, _⟩ => nomatch h⟩
  | some b =>
    simp only [makeBinary, Traced.result_bind_eq_ok_iff, present_eq_ok_iff,
      result_combinedType_eq_ok_iff]
    constructor
    · rintro ⟨cut, hcut, a, hfirst, t, ht, hpure⟩
      cases hpure
      exact ⟨a, b, cut, t, hfirst, rfl, hcut, ht, rfl⟩
    · rintro ⟨a, b, cut, t, hfirst, hsecond, hcut, ht, rfl⟩
      cases hsecond
      exact ⟨cut, hcut, a, hfirst, t, ht, rfl⟩

theorem validateThreshold_absent (h : op.requiresThreshold = false) :
    op.validateThreshold .absent = pure ⟨none, h.symm⟩ :=
  Operator.validateThreshold_degreeValue ⟨none, h.symm⟩

/-- Two sets combine to the binary operator on them, over the more general element type. -/
theorem result_makeComposite_binary (hop : op.isBinary = true) :
    (makeComposite key (.operator op) (.set a) (.set b) .absent name).result = .ok s ↔
      ∃ t, generalType a.elementType b.elementType = some t ∧
        s = .binary ⟨key, name, t⟩ ⟨op, hop⟩ a b := by
  have hmade : makeComposite key (.operator op) (.set a) (.set b) .absent name =
      makeBinary key name ⟨op, hop⟩ (some a) (some b) .absent := dif_pos hop
  have hcombined : makeBinary key name ⟨op, hop⟩ (some a) (some b) .absent =
      combinedType op a.elementType b.elementType >>= fun t =>
        pure (.binary ⟨key, name, t⟩ ⟨op, hop⟩ a b) := by
    rw [makeBinary, validateThreshold_absent (Operator.requiresThreshold_of_isBinary hop)]
    rfl
  rw [hmade, hcombined, Traced.result_bind_eq_ok_iff]
  constructor
  · rintro ⟨t, ht, hpure⟩
    cases hpure
    exact ⟨t, result_combinedType_eq_ok_iff.mp ht, rfl⟩
  · rintro ⟨t, ht, rfl⟩
    exact ⟨t, result_combinedType_eq_ok_iff.mpr ht, rfl⟩

theorem result_makeComposite_unary {threshold : Value} (hop : op.isBinary = false) :
    (makeComposite key (.operator op) (.set a) (.value .absent) threshold name).result = .ok s ↔
      ∃ cut, (op.validateThreshold threshold).result = .ok cut ∧
        s = .unary ⟨key, name, a.elementType⟩ ⟨op, cut, hop⟩ a := by
  have hmade : makeComposite key (.operator op) (.set a) (.value .absent) threshold name =
      makeUnary key name op hop (some a) none threshold := dif_neg (Bool.eq_false_iff.mp hop)
  rw [hmade, makeUnary, Traced.result_bind_eq_ok_iff]
  refine exists_congr fun cut => and_congr_right fun _ => ?_
  constructor
  · intro hpure
    cases hpure
    rfl
  · rintro rfl
    rfl

/-- A combination is made of its operands: of one, over its type, or of two, over the more general
of their types. -/
theorem cases_of_combine {first second : Operand τ} {operator threshold : Value}
    (h : (combine key first operator second threshold name).result = .ok s) :
    (∃ a operation, first = .set a ∧ s = .unary ⟨key, name, a.elementType⟩ operation a) ∨
    ∃ a b t operation, first = .set a ∧ second = .set b ∧
      generalType a.elementType b.elementType = some t ∧
      s = .binary ⟨key, name, t⟩ operation a b := by
  have hmade := (result_combine_eq_ok_iff.mp h).1
  rw [makeComposite, Traced.result_bind_eq_ok_iff] at hmade
  obtain ⟨op, -, hmade⟩ := hmade
  obtain ⟨found, hfirst, hmade⟩ := Traced.result_bind_eq_ok_iff.mp hmade
  obtain ⟨found', hsecond, hmade⟩ := Traced.result_bind_eq_ok_iff.mp hmade
  split at hmade
  · obtain ⟨a, b, -, t, rfl, rfl, -, htype, rfl⟩ := result_makeBinary_eq_ok_iff.mp hmade
    exact .inr ⟨a, b, _, _, operandSet_eq_ok_some_iff.mp hfirst,
      operandSet_eq_ok_some_iff.mp hsecond, htype, rfl⟩
  · obtain ⟨-, a, cut, rfl, -, rfl⟩ := result_makeUnary_eq_ok_iff.mp hmade
    exact .inl ⟨a, _, operandSet_eq_ok_some_iff.mp hfirst, rfl⟩

end FuzzySet

end FuzzyAlgebra

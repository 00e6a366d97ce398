import FuzzyAlgebra.Proofs.Definitions.Outcome

/-!
# Definitions and shapes

There are two ways from parameters to a shape: through a document that defines it, and directly. The
schema and the shapes check the same parameters, in different places; they agree. What is built from
definitions can be written back as a document that defines it again.
-/

namespace FuzzyAlgebra

theorem ShapeKind.label_injective : Function.Injective label := by
  intro kind kind' h
  have hfound : ofLabel? kind.label = some kind := ofLabel?_eq_some_iff.mpr rfl
  exact Option.some.inj (hfound.symm.trans (ofLabel?_eq_some_iff.mpr h))

/-! ### Written definitions -/

namespace Definition

variable {kind : ShapeKind} {numbers : List Binary64} {d d' : Definition} {f : Failure}

/-- The dictionary that describes a definition. -/
def toValue (d : Definition) : Value :=
  .dict [(.text "type", .text d.kind.label), (.text "parameters", .list (d.parameters.map .float))]

theorem forall₂_parameter_iff {others : List Binary64} :
    List.Forall₂ (fun v x => SchemaRules.lax.number v = .ok x) (numbers.map .float) others ↔
      others = numbers := by
  have hfloat (x y : Binary64) : SchemaRules.lax.number (.float x) = .ok y ↔ x = y :=
    ⟨fun h => Except.ok.inj h, congrArg Except.ok⟩
  rw [List.forall₂_map_left_iff]
  simp only [hfloat, List.forall₂_eq_eq_eq]
  exact eq_comm

theorem describes_toValue_iff :
    Describes .lax d.toValue d' ↔ d' = d ∧ d.parameters.length = d.kind.parameterCount := by
  constructor
  · intro h
    generalize hv : d.toValue = v at h
    obtain ⟨htype, hgiven, hitems, hlength, hnumbers⟩ := h
    cases hv
    cases hgiven
    cases hitems
    have hkind := ShapeKind.label_injective (Value.text.inj (Option.some.inj htype))
    rw [← hkind, forall₂_parameter_iff.mp hnumbers]
    rw [List.length_map, ← hkind] at hlength
    exact ⟨rfl, hlength⟩
  · rintro ⟨rfl, hlength⟩
    exact .intro rfl rfl rfl ((List.length_map _).trans hlength) (forall₂_parameter_iff.mpr rfl)

/-! ### The checks of a shape -/

/-- Shapes reject the parameters that the schema finds out of order, with the same failure. -/
theorem Disorder.ofParameters?_eq (h : Disorder d f)
    (hlength : d.parameters.length = d.kind.parameterCount) :
    Shape.ofParameters? d.kind d.parameters = .error f := by
  cases h with
  | width hle => exact dif_pos hle
  | @ramps kind numbers hkind hchain =>
    cases kind with
    | gaussian => exact absurd rfl hkind
    | triangular =>
      obtain ⟨a, b, c, rfl⟩ := List.length_eq_three.mp hlength
      exact dif_neg fun hle => hchain (by simpa using hle)
    | trapezoidal =>
      obtain ⟨a, b, c, d, rfl⟩ := List.length_eq_four.mp hlength
      exact dif_neg fun hle => hchain (by simpa using hle)

end Definition

namespace Definitions

open Definition

variable {kind : ShapeKind} {numbers : List Binary64} {name : String} {ds : Definitions}

/-- The document that defines every definition under its name. -/
def toValue (ds : Definitions) : Value := .dict (ds.map fun (name, d) => (.text name, d.toValue))

/-! ### Acceptance -/

theorem checkEntry_toValue (name : String) {d : Definition} (h : d.Sound) :
    checkEntry .lax (.text name) d.toValue = .valid (name, d) :=
  (checkEntry_eq_valid_iff SchemaRules.asDocumented_lax (.text name)).mpr
    ⟨rfl, describes_toValue_iff.mpr ⟨rfl, h.length_eq⟩, h.ordered⟩

/-- Definitions that are written back define themselves. -/
theorem load_toValue (h : ds.Sound) (hsome : ds ≠ []) : (load ds.toValue).result = .ok ds := by
  have hall : checkEntries .lax (ds.map fun (name, d) => (.text name, d.toValue)) = .valid ds := by
    rw [checkEntries_eq_valid_iff, List.forall₂_map_left_iff, List.forall₂_same]
    exact fun entry hentry => checkEntry_toValue entry.1 (h.definitions entry hentry)
  rw [result_load, toValue, check, hall]
  cases ds with
  | nil => exact absurd rfl hsome
  | cons first rest => exact congrArg Except.ok (distinct_eq_self h.nodup)

theorem insert_ne_nil (entry : String × Definition) (ds : Definitions) : insert entry ds ≠ [] := by
  cases ds with
  | nil => exact List.cons_ne_nil _ _
  | cons other rest =>
    rw [insert]
    split <;> exact List.cons_ne_nil _ _

/-- A document without definitions is not loaded. -/
theorem ne_nil_of_load {document : Value} (h : (load document).result = .ok ds) : ds ≠ [] := by
  rw [result_load] at h
  split at h
  · cases h
  · cases h
  · rename_i found hcheck
    cases h
    unfold check at hcheck
    split at hcheck
    · split at hcheck
      · cases hcheck
      · rename_i hempty
        obtain ⟨all, hall, rfl⟩ := Checked.map_eq_valid_iff.mp hcheck
        cases all with
        | nil => exact absurd hall hempty
        | cons first rest =>
          exact List.foldlRecOn (motive := (· ≠ [])) rest _ (insert_ne_nil first [])
            fun acc _ entry _ => insert_ne_nil entry acc
    · cases hcheck

theorem load_singleton_of_sound {d : Definition} (h : d.Sound) (name : String) :
    (load (toValue [(name, d)])).result = .ok [(name, d)] := by
  have hnodup : names [(name, d)] |>.Nodup := List.pairwise_singleton _ _
  exact load_toValue ⟨hnodup, List.forall_mem_singleton.mpr h⟩ (List.cons_ne_nil _ _)

/-- Parameters make a definition and a shape, or are rejected on both ways: in the same way, unless
their number is wrong. -/
theorem outcome_of_parameters (d : Definition) (name : String) :
    ((∃ ds, (load (toValue [(name, d)])).result = .ok ds) ∧
      ∃ shape, (Shape.create (.text d.kind.label) (.list (d.parameters.map .float))).result =
        .ok shape) ∨
    ∃ f g, (load (toValue [(name, d)])).result = .error (.failure f) ∧
      (Shape.create (.text d.kind.label) (.list (d.parameters.map .float))).result =
        .error (.failure g) ∧
      (d.parameters.length = d.kind.parameterCount → f = g) := by
  rw [Shape.create_floats]
  by_cases hlength : d.parameters.length = d.kind.parameterCount
  · cases hdisorder : disorder? d.kind d.parameters with
    | none =>
      have hsound : d.Sound := ⟨hlength, hdisorder⟩
      obtain ⟨shape, rfl⟩ := hsound.exists_shape
      have hmade := shape.ofParameters?_parameters
      refine .inl ⟨⟨_, load_singleton_of_sound hsound name⟩, shape, ?_⟩
      rw [Shape.definition, hmade]
      rfl
    | some f =>
      have hf : Disorder d f := (disorder?_eq_some_iff hlength).mp hdisorder
      have hentry : Disordered .lax (.text name, d.toValue) f :=
        ⟨d, describes_toValue_iff.mpr ⟨rfl, hlength⟩, hf⟩
      have hrejected := rejected_of_disordered [] [] (List.forall_mem_nil _) hentry
      rw [hf.ofParameters?_eq hlength]
      exact .inr ⟨f, f, hrejected.elim Rejected.result Rejected.result, rfl, fun _ => rfl⟩
  · have hnone (d' : Definition) : ¬ Describes .lax d.toValue d' :=
      fun hd => hlength (describes_toValue_iff.mp hd).2
    have hrejected := rejected_of_outside [(.text name, d.toValue)] SchemaRules.asDocumented_lax
      (List.forall_mem_singleton.mpr (.text name))
      (List.forall_mem_singleton.mpr fun f ⟨d', hd, _⟩ => hnone d' hd)
      ⟨_, List.mem_cons_self, fun ⟨_, d', hd⟩ => hnone d' hd⟩
    rw [Shape.ofParameters?_of_length_ne hlength]
    exact .inr ⟨_, _, hrejected.result, rfl, fun h => absurd h hlength⟩

/-- **Documents and shapes agree.** A document that defines one shape is loaded exactly if the shape
can be made of its parameters, and parameters in the right number are rejected in the same way on
both ways. Whatever document was loaded, every definition is built, in order and under its name, as
the set over the numbers of a shape with its kind and its parameters; and the shapes, written back
as a document, are loaded as the same definitions. -/
theorem load_and_create_agree {τ : Type} [ClassHierarchy τ] (number : τ) :
    (∀ (kind : ShapeKind) (numbers : List Binary64) (name : String),
      ((∃ ds, (load (toValue [(name, ⟨kind, numbers⟩)])).result = .ok ds) ↔
        ∃ shape, (Shape.create (.text kind.label) (.list (numbers.map .float))).result =
          .ok shape) ∧
      (numbers.length = kind.parameterCount → ∀ e,
        (load (toValue [(name, ⟨kind, numbers⟩)])).result = .error e ↔
          (Shape.create (.text kind.label) (.list (numbers.map .float))).result = .error e)) ∧
    ∀ (document : Value) (ds : Definitions) (key : Nat), (load document).result = .ok ds →
      ∃ shapes, (build number key ds).result = .ok (setsOf number key shapes) ∧
        ofShapes shapes = ds ∧ (load (toValue (ofShapes shapes))).result = .ok ds := by
  refine ⟨fun kind numbers name => ?_, fun document ds key hload => ?_⟩
  · rcases outcome_of_parameters ⟨kind, numbers⟩ name with
      ⟨⟨ds, hds⟩, shape, hshape⟩ | ⟨f, g, hf, hg, heq⟩
    · rw [hds, hshape]
      simp
    · rw [hf, hg]
      refine ⟨by simp, fun hlength e => ?_⟩
      rw [heq hlength, Except.error.injEq, Except.error.injEq]
  · have hsound := sound_of_load hload
    obtain ⟨shapes, rfl⟩ := exists_shapes_of_sound hsound.definitions
    exact ⟨shapes, result_build number key shapes, rfl, load_toValue hsound (ne_nil_of_load hload)⟩

/-- A bell curve of no definite width is a definition that is built and written back; a triangle
without a definite peak is rejected as the constructor rejects it. -/
theorem load_and_create_agree_at_nan :
    let blurred : Definitions := [("blurred", ⟨.gaussian, [0, .nan]⟩)]
    (load (toValue blurred)).result = .ok blurred ∧
      (∃ shapes, (build ElementType.float 0 blurred).result = .ok (setsOf .float 0 shapes) ∧
        ofShapes shapes = blurred ∧ (load (toValue (ofShapes shapes))).result = .ok blurred) ∧
      (load (toValue [("tent", ⟨.triangular, [0, .nan, 1]⟩)])).result =
        .error (.failure (.parameterOrder .triangular [0, .nan, 1])) := by
  intro blurred
  have hsound : (⟨.gaussian, [0, .nan]⟩ : Definition).Sound := ⟨rfl, rfl⟩
  have hload : (load (toValue blurred)).result = .ok blurred :=
    load_singleton_of_sound hsound "blurred"
  have hlength : ([0, .nan, 1] : List Binary64).length = ShapeKind.triangular.parameterCount := by
    decide
  have hcreate : (Shape.create (.text ShapeKind.triangular.label)
      (.list (([0, .nan, 1] : List Binary64).map .float))).result =
        .error (.failure (.parameterOrder .triangular [0, .nan, 1])) := by
    rw [Shape.create_floats, Shape.ofParameters?, dif_neg (by decide)]
    rfl
  have hsame := ((load_and_create_agree ElementType.float).1 .triangular [0, .nan, 1] "tent").2
    hlength (.failure (.parameterOrder .triangular [0, .nan, 1]))
  exact ⟨hload, (load_and_create_agree ElementType.float).2 _ _ 0 hload, hsame.mpr hcreate⟩

end Definitions

end FuzzyAlgebra

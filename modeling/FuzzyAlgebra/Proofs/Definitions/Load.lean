import FuzzyAlgebra.Definitions.Load
import FuzzyAlgebra.Proofs.Definitions.Schema
import FuzzyAlgebra.Proofs.FuzzySet.Combine
import FuzzyAlgebra.Proofs.Keyed
import FuzzyAlgebra.Proofs.Trace
import Mathlib.Data.List.Basic

/-!
# What the schema says about definitions

Loaded definitions have names of their own and parameters that their shapes accept: the schema makes
the same checks as the shapes, on numbers that it has converted already. So every defined set can be
built. About the names themselves the schema says nothing more than that they are texts.
-/

namespace FuzzyAlgebra

/-- The parameters are as many as the shape takes, and in order. -/
structure Definition.Sound (d : Definition) : Prop where
  length_eq : d.parameters.length = d.kind.parameterCount
  ordered : Definition.disorder? d.kind d.parameters = none

namespace Definitions

def names (ds : Definitions) : List String := ds.map Prod.fst

/-- Definitions that each name has once, and that can all be built. -/
structure Sound (ds : Definitions) : Prop where
  nodup : ds.names.Nodup
  definitions : ∀ entry ∈ ds, entry.2.Sound

end Definitions

/-! ### Checking -/

theorem Definition.sound_of_check {rules : SchemaRules} {step : PathStep} {v : Value}
    {d : Definition} (h : check rules step v = .valid d) : d.Sound := by
  obtain ⟨hdescribes, hordered⟩ := check_eq_valid_iff.mp h
  exact ⟨hdescribes.length_eq, hordered⟩

namespace Definitions

variable {rules : SchemaRules} {document : Value} {ds : Definitions}

theorem sound_of_checkEntries {entries : List (Value × Value)}
    (h : checkEntries rules entries = .valid ds) : ∀ entry ∈ ds, entry.2.Sound := by
  induction entries generalizing ds with
  | nil =>
    cases h
    intro entry hentry
    cases hentry
  | cons first rest ih =>
    obtain ⟨key, v⟩ := first
    obtain ⟨entry, others, hentry, hothers, rfl⟩ := Checked.zipWith_eq_valid_iff.mp h
    obtain ⟨name, d, -, hd, rfl⟩ := Checked.zipWith_eq_valid_iff.mp hentry
    intro other hother
    rcases List.mem_cons.mp hother with rfl | hother
    · exact Definition.sound_of_check hd
    · exact ih hothers other hother

/-! ### Names of their own -/

theorem insert_eq_upsert (entry : String × Definition) (ds : Definitions) :
    insert entry ds = upsert Prod.fst entry ds := by
  induction ds with
  | nil => rfl
  | cons other rest ih => rw [insert, upsert, ih]

theorem Sound.insert (h : ds.Sound) {entry : String × Definition}
    (hentry : entry.2.Sound) : (insert entry ds).Sound := by
  rw [insert_eq_upsert]
  refine ⟨nodup_map_key_upsert h.nodup entry, ?_⟩
  intro other hother
  rcases mem_upsert hother with rfl | hold
  · exact hentry
  · exact h.definitions other hold

theorem sound_distinct (h : ∀ entry ∈ ds, entry.2.Sound) :
    (distinct ds).Sound := by
  have hnone : Sound [] := ⟨List.nodup_nil, fun _ hentry => by cases hentry⟩
  exact List.foldlRecOn ds _ hnone fun _ hacc entry hentry => hacc.insert (h entry hentry)

theorem sound_of_check (h : check rules document = .valid ds) : ds.Sound := by
  unfold check at h
  split at h
  · split at h
    · cases h
    · obtain ⟨all, hall, rfl⟩ := Checked.map_eq_valid_iff.mp h
      exact sound_distinct (sound_of_checkEntries hall)
  · cases h

theorem sound_of_loadUnder (h : (loadUnder rules document).result = .ok ds) : ds.Sound := by
  unfold loadUnder at h
  split at h
  · cases h
  · cases h
  · rename_i found hcheck
    obtain ⟨-, -, hfound⟩ := Traced.result_bind_eq_ok_iff.mp h
    cases hfound
    exact sound_of_check hcheck

theorem sound_of_load (h : (load document).result = .ok ds) : ds.Sound := sound_of_loadUnder h

end Definitions

/-! ### Building -/

/-- The definition that a shape is built from. -/
def Shape.definition (s : Shape) : Definition := ⟨s.kind, s.parameters⟩

namespace Definition

theorem nondecreasing_of_disorder? {kind : ShapeKind} (hkind : kind ≠ .gaussian)
    {numbers : List Binary64} (h : disorder? kind numbers = none) :
    nondecreasing numbers = true := by
  rw [disorder?_of_ramps hkind] at h
  split at h
  · assumption
  · cases h

/-- A sound definition is the definition of a shape. -/
theorem Sound.exists_shape {d : Definition} (h : d.Sound) :
    ∃ shape, Shape.definition shape = d := by
  obtain ⟨kind, numbers⟩ := d
  obtain ⟨hlength, hordered⟩ := h
  cases kind with
  | triangular =>
    obtain ⟨a, b, c, rfl⟩ := List.length_eq_three.mp hlength
    have hle : a ≤ b ∧ b ≤ c := by
      simpa [nondecreasing] using nondecreasing_of_disorder? ShapeKind.noConfusion hordered
    exact ⟨.triangle ⟨a, b, c, hle.1, hle.2⟩, rfl⟩
  | trapezoidal =>
    obtain ⟨a, b, c, d, rfl⟩ := List.length_eq_four.mp hlength
    have hle : a ≤ b ∧ b ≤ c ∧ c ≤ d := by
      simpa [nondecreasing] using nondecreasing_of_disorder? ShapeKind.noConfusion hordered
    exact ⟨.trapezoid ⟨a, b, c, d, hle.1, hle.2.1, hle.2.2⟩, rfl⟩
  | gaussian =>
    obtain ⟨mu, sigma, rfl⟩ := List.length_eq_two.mp hlength
    have hwide : ¬ sigma ≤ 0 := by
      intro hle
      rw [disorder?, if_pos hle] at hordered
      cases hordered
    exact ⟨.gaussian ⟨mu, sigma, hwide⟩, rfl⟩

end Definition

namespace Shape

theorem ofLabel?_lower_label (kind : ShapeKind) :
    ShapeKind.ofLabel? (Text.lower kind.label) = some kind := by
  cases kind <;> decide +kernel

theorem create_label (kind : ShapeKind) (parameters : Value) :
    create (.text kind.label) parameters = ofValues kind parameters := by
  unfold create
  dsimp only
  rw [ofLabel?_lower_label]

theorem mapM_toBinary64_float (numbers : List Binary64) :
    (numbers.map Value.float).mapM Value.toBinary64 = .ok numbers := by
  induction numbers with
  | nil => rfl
  | cons x rest ih =>
    rw [List.map_cons, List.mapM_cons, ih]
    rfl

/-- A shape is made again of its own parameters. -/
theorem ofParameters?_parameters (s : Shape) : ofParameters? s.kind s.parameters = .ok s := by
  cases s with
  | triangle t => exact dif_pos ⟨t.rising, t.falling⟩
  | trapezoid t => exact dif_pos ⟨t.rising, t.level, t.falling⟩
  | gaussian g => exact dif_neg g.wide

theorem definition_injective : Function.Injective definition := by
  intro s t h
  obtain ⟨hkind, hparameters⟩ := Definition.mk.inj h
  have hmade := s.ofParameters?_parameters
  rw [hkind, hparameters, t.ofParameters?_parameters] at hmade
  exact (Except.ok.inj hmade).symm

theorem ofParameters?_of_length_ne {kind : ShapeKind} {numbers : List Binary64}
    (h : numbers.length ≠ kind.parameterCount) :
    ofParameters? kind numbers = .error (.parameterCount kind numbers.length) := by
  unfold ofParameters?
  split
  · exact absurd rfl h
  · exact absurd rfl h
  · exact absurd rfl h
  · rfl

/-- Numbers are taken as they are. -/
theorem create_floats (kind : ShapeKind) (numbers : List Binary64) :
    create (.text kind.label) (.list (numbers.map .float)) =
      ofValues.settle (ofParameters? kind numbers) := by
  have hitems : Traced.ofMishap (items (.list (numbers.map .float))) =
      pure (numbers.map .float) := rfl
  rw [create_label, ofValues, hitems, pure_bind, List.length_map]
  by_cases hlength : numbers.length = kind.parameterCount
  · rw [if_pos hlength, mapM_toBinary64_float]
    rfl
  · rw [if_neg hlength, ofParameters?_of_length_ne hlength]

theorem result_ofValues_parameters (s : Shape) :
    (ofValues s.kind (.list (s.parameters.map .float))).result = .ok s := by
  rw [← create_label, create_floats, ofParameters?_parameters]
  rfl

end Shape

theorem FuzzySet.result_ofFunction {τ : Type} (key : Nat) (f : MembershipFunction) (tag : τ)
    (name : String) :
    (ofFunction key (.function f) (.tag tag) (.text name)).result =
      .ok (.primitive ⟨key, .text name, some tag⟩ f) :=
  result_ofFunction_eq_ok_iff.mpr
    ⟨rfl, exists_describe_iff.mpr (labelled_of_optionalText (.inr ⟨name, rfl⟩) nofun)⟩

namespace Definitions

variable {τ : Type} (number : τ)

/-- The fuzzy set of a shape under a name. -/
def setOf (key : Nat) (name : String) (shape : Shape) : FuzzySet τ :=
  .primitive ⟨key, .text name, some number⟩ (.ofShape shape)

/-- The fuzzy sets of shapes under their names, keyed in order. -/
def setsOf : Nat → List (String × Shape) → List (String × FuzzySet τ)
  | _, [] => []
  | key, (name, shape) :: rest => (name, setOf number key name shape) :: setsOf (key + 1) rest

/-- The definitions that shapes under their names are built from. -/
def ofShapes (shapes : List (String × Shape)) : Definitions :=
  shapes.map fun (name, shape) => (name, shape.definition)

theorem ofShapes_injective : Function.Injective ofShapes :=
  List.map_injective_iff.mpr fun _ _ h =>
    Prod.ext (Prod.mk.inj h).1 (Shape.definition_injective (Prod.mk.inj h).2)

theorem map_fst_setsOf (key : Nat) (shapes : List (String × Shape)) :
    (setsOf number key shapes).map Prod.fst = (ofShapes shapes).names := by
  induction shapes generalizing key with
  | nil => rfl
  | cons first rest ih => exact congrArg (first.1 :: ·) (ih (key + 1))

theorem elementType_of_mem_setsOf {key : Nat} {shapes : List (String × Shape)}
    {entry : String × FuzzySet τ} (h : entry ∈ setsOf number key shapes) :
    entry.2.elementType = some number := by
  induction shapes generalizing key with
  | nil => cases h
  | cons first rest ih =>
    rcases List.mem_cons.mp h with rfl | hrest
    · rfl
    · exact ih hrest

theorem result_buildOne (key : Nat) (name : String) (shape : Shape) :
    (buildOne number key name shape.definition).result = .ok (setOf number key name shape) := by
  have hcreate : Shape.create (.text shape.kind.label) (.list (shape.parameters.map .float)) =
      pure shape := by
    rw [Shape.create_floats, shape.ofParameters?_parameters]
    rfl
  rw [buildOne]
  change (Shape.create (.text shape.kind.label) (.list (shape.parameters.map .float)) >>= _).result
    = _
  rw [hcreate, pure_bind, FuzzySet.result_ofFunction]
  rfl

/-- What is built from the definitions of shapes are the sets of these shapes. -/
theorem result_build (key : Nat) (shapes : List (String × Shape)) :
    (build number key (ofShapes shapes)).result = .ok (setsOf number key shapes) := by
  induction shapes generalizing key with
  | nil => rfl
  | cons first rest ih =>
    obtain ⟨name, shape⟩ := first
    change (build number key ((name, shape.definition) :: ofShapes rest)).result = _
    rw [build, Traced.bind_of_ok (result_buildOne number key name shape),
      Traced.bind_of_ok (ih (key + 1))]
    rfl

theorem exists_shapes_of_sound {ds : Definitions} (h : ∀ entry ∈ ds, entry.2.Sound) :
    ∃ shapes, ofShapes shapes = ds := by
  induction ds with
  | nil => exact ⟨[], rfl⟩
  | cons first rest ih =>
    obtain ⟨name, d⟩ := first
    have hd : d.Sound := h (name, d) List.mem_cons_self
    obtain ⟨shape, rfl⟩ := hd.exists_shape
    obtain ⟨others, rfl⟩ := ih fun entry hentry => h entry (List.mem_cons_of_mem _ hentry)
    exact ⟨(name, shape) :: others, rfl⟩

/-- Every defined set can be built, and is a set over the numbers. -/
theorem exists_build_of_sound (key : Nat) {ds : Definitions}
    (h : ∀ entry ∈ ds, entry.2.Sound) :
    ∃ sets, (build number key ds).result = .ok sets ∧ sets.map Prod.fst = ds.names ∧
      ∀ entry ∈ sets, entry.2.elementType = some number := by
  obtain ⟨shapes, rfl⟩ := exists_shapes_of_sound h
  exact ⟨_, result_build number key shapes, map_fst_setsOf number key shapes,
    fun _ hentry => elementType_of_mem_setsOf number hentry⟩

end Definitions

end FuzzyAlgebra

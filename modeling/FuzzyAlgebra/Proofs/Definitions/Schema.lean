import FuzzyAlgebra.Definitions.Schema
import Mathlib.Data.List.Chain
import Mathlib.Data.List.Forall2

/-!
# What describes a definition

A value describes a definition if it names one of the shapes and lists as many numbers as the shape
takes. The check of a value accepts exactly what describes a definition in order, ends with a
failure at exactly what describes one out of order, and finds violations inside of everything else.
-/

namespace FuzzyAlgebra

/-! ### Outcomes of checks -/

namespace Checked

variable {α β γ : Type} {f : α → β → γ} {a : Checked α} {b : Checked β}

def violations : Checked α → List Violation
  | invalid vs => vs
  | _ => []

/-- A check that fails finds at least one violation, and all of them inside of a place. -/
def InvalidOnlyIn (place : List PathStep) (a : Checked α) : Prop :=
  ∀ vs, a = invalid vs → vs ≠ [] ∧ ∀ w ∈ vs, place <+: w.location

theorem zipWith_eq_valid_iff {c : γ} :
    zipWith f a b = valid c ↔ ∃ x y, a = valid x ∧ b = valid y ∧ f x y = c := by
  cases a <;> cases b <;> simp [zipWith]

theorem zipWith_eq_refused_iff {e : Failure} (h : ∀ e', a ≠ refused e') :
    zipWith f a b = refused e ↔ b = refused e := by
  cases a with
  | refused e' => exact absurd rfl (h e')
  | valid x => cases b <;> simp [zipWith]
  | invalid vs => cases b <;> simp [zipWith]

theorem violations_zipWith (ha : ∀ e, a ≠ refused e) (hb : ∀ e, b ≠ refused e) :
    (zipWith f a b).violations = a.violations ++ b.violations := by
  cases a with
  | refused e => exact absurd rfl (ha e)
  | valid x =>
    cases b with
    | refused e => exact absurd rfl (hb e)
    | _ => rfl
  | invalid vs =>
    cases b with
    | refused e => exact absurd rfl (hb e)
    | valid y => exact (List.append_nil vs).symm
    | invalid ws => rfl

theorem map_eq_valid_iff {g : α → β} {y : β} : a.map g = valid y ↔ ∃ x, a = valid x ∧ g x = y := by
  cases a <;> simp [map]

theorem InvalidOnlyIn.zipWith {place : List PathStep} (ha : a.InvalidOnlyIn place)
    (hb : b.InvalidOnlyIn place) : (Checked.zipWith f a b).InvalidOnlyIn place := by
  intro vs h
  cases a with
  | refused e => cases h
  | valid x =>
    cases b with
    | invalid ws =>
      cases h
      exact hb vs rfl
    | _ => cases h
  | invalid us =>
    obtain ⟨hus, hin⟩ := ha us rfl
    cases b with
    | refused e => cases h
    | valid y =>
      cases h
      exact ⟨hus, hin⟩
    | invalid ws =>
      cases h
      obtain ⟨-, hin'⟩ := hb ws rfl
      refine ⟨List.append_ne_nil_of_left_ne_nil hus ws, fun w hw => ?_⟩
      exact (List.mem_append.mp hw).elim (hin w) (hin' w)

end Checked

theorem ShapeKind.ofLabel?_eq_some_iff {label : String} {kind : ShapeKind} :
    ofLabel? label = some kind ↔ label = kind.label := by
  constructor
  · intro h
    have hfound := List.find?_some (p := fun kind : ShapeKind => kind.label = label) h
    exact (of_decide_eq_true hfound).symm
  · rintro rfl
    cases kind <;> decide

namespace Definition

variable {rules : SchemaRules} {kind : ShapeKind} {place : List PathStep} {given : Option Value}
  {numbers : List Binary64}

/-! ### Parameters -/

theorem parametersFrom_eq_iff {i : Nat} {items : List Value} :
    parametersFrom rules place i items = (numbers, []) ↔
      List.Forall₂ (fun v x => rules.number v = .ok x) items numbers := by
  induction items generalizing i numbers with
  | nil => simp [parametersFrom, eq_comm]
  | cons v rest ih =>
    rcases hrest : parametersFrom rules place (i + 1) rest with ⟨others, violations⟩
    rw [parametersFrom, hrest, List.forall₂_cons_left_iff]
    cases hv : rules.number v with
    | error kind => simp
    | ok x =>
      constructor
      · intro h
        cases h
        exact ⟨x, others, rfl, ih.mp hrest, rfl⟩
      · rintro ⟨y, ys, hy, hys, rfl⟩
        cases hy
        have hall : parametersFrom rules place (i + 1) rest = (ys, []) := ih.mpr hys
        cases hrest.symm.trans hall
        rfl

theorem prefix_of_mem_parametersFrom {i : Nat} {items : List Value} {w : Violation}
    (h : w ∈ (parametersFrom rules place i items).2) : place <+: w.location := by
  induction items generalizing i with
  | nil => cases h
  | cons v rest ih =>
    rw [parametersFrom] at h
    cases hv : rules.number v with
    | ok x =>
      rw [hv] at h
      exact ih h
    | error kind =>
      rw [hv] at h
      rcases List.mem_cons.mp h with rfl | hrest
      · exact List.prefix_append _ _
      · exact ih hrest

theorem parameterList_eq_ok_iff :
    parameterList rules kind place given = .ok numbers ↔
      ∃ v items, given = some v ∧ rules.items? v = some items ∧
        items.length = kind.parameterCount ∧
        List.Forall₂ (fun v x => rules.number v = .ok x) items numbers := by
  cases given with
  | none => simp [parameterList]
  | some v =>
    cases hitems : rules.items? v with
    | none => simp [parameterList, hitems]
    | some items =>
      have hiff : parameterList rules kind place (some v) = .ok numbers ↔
          items.length = kind.parameterCount ∧
            parametersFrom rules place 0 items = (numbers, []) := by
        rcases hfound : parametersFrom rules place 0 items with ⟨found, violations⟩
        simp only [parameterList, hitems, hfound]
        split
        · simp
          omega
        · cases violations with
          | nil =>
            dsimp only
            split
            · simp
              omega
            · simp
              omega
          | cons w ws => simp
      rw [hiff, parametersFrom_eq_iff]
      constructor
      · rintro ⟨hlength, hnumbers⟩
        exact ⟨v, items, rfl, hitems, hlength, hnumbers⟩
      · rintro ⟨v', items', hv, hitems', hlength, hnumbers⟩
        cases hv
        cases hitems.symm.trans hitems'
        exact ⟨hlength, hnumbers⟩

theorem of_parameterList_eq_error {vs : List Violation}
    (h : parameterList rules kind place given = .error vs) :
    vs ≠ [] ∧ ∀ w ∈ vs, place <+: w.location := by
  have hone : ∀ violation, ([⟨violation, place⟩] : List Violation) ≠ [] ∧
      ∀ w ∈ ([⟨violation, place⟩] : List Violation), place <+: w.location := by
    intro violation
    refine ⟨List.cons_ne_nil _ _, fun w hw => ?_⟩
    obtain rfl := List.mem_singleton.mp hw
    exact List.prefix_rfl
  unfold parameterList at h
  split at h
  · cases h
    exact hone _
  · split at h
    · cases h
      exact hone _
    · rename_i items _
      split at h
      · cases h
        exact hone _
      · split at h
        · split at h
          · cases h
            exact hone _
          · cases h
        · rename_i hsome hfound
          cases h
          refine ⟨hsome, fun w hw => ?_⟩
          have hmem : w ∈ (parametersFrom rules place 0 items).2 := by rwa [hfound]
          exact prefix_of_mem_parametersFrom hmem

/-! ### Order -/

/-- The failure that a definition out of order ends with. -/
inductive Disorder : Definition → Failure → Prop
  | ramps {kind : ShapeKind} {parameters : List Binary64} :
    kind ≠ .gaussian → ¬ parameters.IsChain (· ≤ ·) →
      Disorder ⟨kind, parameters⟩ (.parameterOrder kind parameters)
  | width {mu sigma : Binary64} :
    sigma ≤ 0 → Disorder ⟨.gaussian, [mu, sigma]⟩ (.invalidSigma sigma)

theorem nondecreasing_iff : nondecreasing numbers = true ↔ numbers.IsChain (· ≤ ·) := by
  induction numbers with
  | nil => simp [nondecreasing]
  | cons x rest ih =>
    cases rest with
    | nil => simp [nondecreasing]
    | cons y rest => rw [nondecreasing, Bool.and_eq_true, decide_eq_true_iff, ih,
        List.isChain_cons_cons]

theorem disorder?_of_ramps (hkind : kind ≠ .gaussian) :
    disorder? kind numbers =
      if nondecreasing numbers then none else some (.parameterOrder kind numbers) := by
  cases kind with
  | gaussian => exact absurd rfl hkind
  | _ => rfl

theorem disorder?_eq_some_iff (hlength : numbers.length = kind.parameterCount) {f : Failure} :
    disorder? kind numbers = some f ↔ Disorder ⟨kind, numbers⟩ f := by
  by_cases hkind : kind = .gaussian
  · subst hkind
    obtain ⟨mu, sigma, rfl⟩ := List.length_eq_two.mp hlength
    by_cases hle : sigma ≤ 0
    · rw [disorder?, if_pos hle]
      constructor
      · rintro ⟨⟩
        exact .width hle
      · rintro (⟨hkind, -⟩ | -)
        · exact absurd rfl hkind
        · rfl
    · rw [disorder?, if_neg hle]
      constructor
      · nofun
      · rintro (⟨hkind, -⟩ | hle')
        · exact absurd rfl hkind
        · exact absurd hle' hle
  · rw [disorder?_of_ramps hkind]
    by_cases hchain : nondecreasing numbers = true
    · rw [if_pos hchain]
      constructor
      · nofun
      · rintro (⟨-, hnot⟩ | -)
        · exact absurd (nondecreasing_iff.mp hchain) hnot
        · exact absurd rfl hkind
    · rw [if_neg hchain]
      constructor
      · rintro ⟨⟩
        exact .ramps hkind (mt nondecreasing_iff.mpr hchain)
      · rintro (⟨-, -⟩ | -)
        · rfl
        · exact absurd rfl hkind

/-! ### Whole definitions -/

/-- A dictionary with one of the types, and with a list of as many numbers as a shape of that type
takes. -/
inductive Describes (rules : SchemaRules) : Value → Definition → Prop
  | intro {fields : List (Value × Value)} {kind : ShapeKind} {given : Value} {items : List Value}
    {parameters : List Binary64} :
    Value.entry? "type" fields = some (.text kind.label) →
      Value.entry? "parameters" fields = some given → rules.items? given = some items →
      items.length = kind.parameterCount →
      List.Forall₂ (fun v x => rules.number v = .ok x) items parameters →
      Describes rules (.dict fields) ⟨kind, parameters⟩

variable {step : PathStep} {v : Value} {d : Definition} {f : Failure}

theorem Describes.length_eq (h : Describes rules v d) :
    d.parameters.length = d.kind.parameterCount := by
  obtain ⟨-, -, -, hlength, hnumbers⟩ := h
  exact hnumbers.length_eq.symm.trans hlength

/-- What describes a definition is checked for its order only. -/
theorem Describes.check_eq (h : Describes rules v d) (step : PathStep) :
    check rules step v = match disorder? d.kind d.parameters with
      | some f => .refused f
      | none => .valid d := by
  obtain ⟨htype, hgiven, hitems, hlength, hnumbers⟩ := h
  rename_i fields kind given items parameters
  have hlist (place : List PathStep) :
      parameterList rules kind place (some given) = .ok parameters :=
    parameterList_eq_ok_iff.mpr ⟨given, items, rfl, hitems, hlength, hnumbers⟩
  have hlabel : ShapeKind.ofLabel? kind.label = some kind := ShapeKind.ofLabel?_eq_some_iff.mpr rfl
  simp only [check, htype, hlabel, checkParameters, hgiven, hlist]
  cases disorder? kind parameters <;> rfl

/-- What describes no definition has violations, all of them inside of it. -/
theorem describes_or_invalid (rules : SchemaRules) (step : PathStep) (v : Value) :
    (∃ d, Describes rules v d) ∨
      ∃ vs, check rules step v = .invalid vs ∧ vs ≠ [] ∧ ∀ w ∈ vs, [step] <+: w.location := by
  have hone (violation : ViolationKind) (h : check rules step v = .invalid [⟨violation, [step]⟩]) :
      ∃ vs, check rules step v = .invalid vs ∧ vs ≠ [] ∧ ∀ w ∈ vs, [step] <+: w.location := by
    refine ⟨_, h, List.cons_ne_nil _ _, fun w hw => ?_⟩
    obtain rfl := List.mem_singleton.mp hw
    exact List.prefix_rfl
  cases v with
  | dict fields =>
    cases htype : Value.entry? "type" fields with
    | none => exact .inr (hone .typeMissing (by simp only [check, htype]))
    | some type =>
      by_cases hkind : ∃ kind : ShapeKind, type = .text kind.label
      · obtain ⟨kind, rfl⟩ := hkind
        have hlabel : ShapeKind.ofLabel? kind.label = some kind :=
          ShapeKind.ofLabel?_eq_some_iff.mpr rfl
        cases hlist : parameterList rules kind ([step, .key kind.label] ++ [.key "parameters"])
            (Value.entry? "parameters" fields) with
        | ok parameters =>
          obtain ⟨given, items, hgiven, hitems, hlength, hnumbers⟩ :=
            parameterList_eq_ok_iff.mp hlist
          exact .inl ⟨_, .intro htype hgiven hitems hlength hnumbers⟩
        | error vs =>
          obtain ⟨hne, hin⟩ := of_parameterList_eq_error hlist
          refine .inr ⟨vs, ?_, hne, fun w hw => ?_⟩
          · simp only [check, htype, hlabel, checkParameters, hlist, Checked.map]
          · exact (List.prefix_append [step] _).trans (hin w hw)
      · refine .inr (hone .typeUnknown ?_)
        cases type with
        | text label =>
          have hlabel : ShapeKind.ofLabel? label = none := by
            refine Option.eq_none_iff_forall_ne_some.mpr fun kind hfound => hkind ⟨kind, ?_⟩
            rw [ShapeKind.ofLabel?_eq_some_iff.mp hfound]
          simp only [check, htype, hlabel]
        | _ => simp only [check, htype]
  | _ => exact .inr (hone _ rfl)

theorem check_eq_refused_iff :
    check rules step v = .refused f ↔ ∃ d, Describes rules v d ∧ Disorder d f := by
  constructor
  · intro h
    rcases describes_or_invalid rules step v with ⟨d, hd⟩ | ⟨vs, hinvalid, -⟩
    · refine ⟨d, hd, ?_⟩
      rw [hd.check_eq step] at h
      split at h
      · rename_i g hdisorder
        cases h
        exact (disorder?_eq_some_iff hd.length_eq).mp hdisorder
      · cases h
    · cases hinvalid.symm.trans h
  · rintro ⟨d, hd, hdisorder⟩
    rw [hd.check_eq step, (disorder?_eq_some_iff hd.length_eq).mpr hdisorder]

theorem check_eq_valid_iff :
    check rules step v = .valid d ↔ Describes rules v d ∧ disorder? d.kind d.parameters = none := by
  constructor
  · intro h
    rcases describes_or_invalid rules step v with ⟨d', hd⟩ | ⟨vs, hinvalid, -⟩
    · rw [hd.check_eq step] at h
      split at h
      · cases h
      · cases h
        exact ⟨hd, by assumption⟩
    · cases hinvalid.symm.trans h
  · rintro ⟨hd, hordered⟩
    rw [hd.check_eq step, hordered]

theorem invalidOnlyIn_check (rules : SchemaRules) (step : PathStep) (v : Value) :
    (check rules step v).InvalidOnlyIn [step] := by
  intro vs h
  rcases describes_or_invalid rules step v with ⟨d, hd⟩ | ⟨ws, hinvalid, hws⟩
  · rw [hd.check_eq step] at h
    split at h <;> cases h
  · cases hinvalid.symm.trans h
    exact hws

end Definition

end FuzzyAlgebra

import FuzzyAlgebra.Scope.Stack
import FuzzyAlgebra.Proofs.Scope.Frame
import FuzzyAlgebra.Proofs.Trace

/-!
# The operations on stacks

Each operation is described once, by its result and by the stack it leaves: entering puts an empty
frame on top, leaving takes the top frame off unless it is the root, and an assignment either changes
nothing or binds in the top frame. Looking up finds the first frame from the top that has the name.
-/

namespace FuzzyAlgebra.ScopeStack

variable {τ : Type} {s : ScopeStack τ}

/-! ### The frames from the top -/

def push (f : Frame τ) (s : ScopeStack τ) : ScopeStack τ := ⟨s.root, f :: s.inner⟩

@[simp]
theorem inwardOut_push (f : Frame τ) (s : ScopeStack τ) :
    (s.push f).inwardOut = f :: s.inwardOut := rfl

theorem inwardOut_of_inner {f : Frame τ} {rest : List (Frame τ)} (h : s.inner = f :: rest) :
    s.inwardOut = f :: (⟨s.root, rest⟩ : ScopeStack τ).inwardOut := by
  rw [inwardOut, h]
  rfl

def outer (s : ScopeStack τ) : List (Frame τ) := s.inwardOut.tail

theorem inwardOut_eq_cons (s : ScopeStack τ) : s.inwardOut = s.current :: s.outer := by
  obtain ⟨root, inner⟩ := s
  cases inner <;> rfl

theorem inwardOut_mapCurrent (g : Frame τ → Frame τ) (s : ScopeStack τ) :
    (s.mapCurrent g).inwardOut = g s.current :: s.outer := by
  obtain ⟨root, inner⟩ := s
  cases inner <;> rfl

theorem current_mapCurrent (g : Frame τ → Frame τ) (s : ScopeStack τ) :
    (s.mapCurrent g).current = g s.current := by
  obtain ⟨root, inner⟩ := s
  cases inner <;> rfl

theorem outer_mapCurrent (g : Frame τ → Frame τ) (s : ScopeStack τ) :
    (s.mapCurrent g).outer = s.outer := by
  rw [outer, inwardOut_mapCurrent, List.tail_cons]

theorem mapCurrent_self (s : ScopeStack τ) : (s.mapCurrent fun f => f) = s := by
  obtain ⟨root, inner⟩ := s
  cases inner <;> rfl

theorem mapCurrent_mapCurrent (g h : Frame τ → Frame τ) (s : ScopeStack τ) :
    (s.mapCurrent g).mapCurrent h = s.mapCurrent fun f => h (g f) := by
  obtain ⟨root, inner⟩ := s
  cases inner <;> rfl

theorem frames_eq_reverse (s : ScopeStack τ) : s.frames = s.inwardOut.reverse := by
  rw [frames, inwardOut, List.reverse_append]
  rfl

/-! ### Entering and leaving -/

theorem enter_eq (key : Nat) (name : String) (s : ScopeStack τ) :
    (enter key name s).1.result = .ok (.empty key name) ∧
      (enter key name s).2 = s.push (.empty key name) :=
  ⟨rfl, rfl⟩

theorem exit_of_root (h : s.inner = []) :
    (exit s).1.result = .error (.failure (.cannotExitRoot s.depth)) ∧ (exit s).2 = s := by
  obtain ⟨root, inner⟩ := s
  cases h
  exact ⟨rfl, rfl⟩

theorem exit_of_inner {f : Frame τ} {rest : List (Frame τ)} (h : s.inner = f :: rest) :
    (exit s).1.result = .ok f ∧ (exit s).2 = ⟨s.root, rest⟩ := by
  obtain ⟨root, inner⟩ := s
  cases h
  exact ⟨rfl, rfl⟩

/-! ### Assigning -/

section Assign

variable [ClassHierarchy τ] {name : Value} {value : Operand τ} {declared : TagArgument τ}
  {b : Binding τ} {e : Fault}

theorem assign_of_ok (h : (checkBinding name value declared).result = .ok b) (s : ScopeStack τ) :
    (assign name value declared s).1.result = .ok () ∧
      (assign name value declared s).2 = s.mapCurrent fun f => f.bind b := by
  have hlift : ((checkBinding name value declared : Action (ScopeStack τ) (Binding τ)) s).1.result =
      .ok b := h
  unfold assign
  rw [Action.bind_of_ok hlift]
  exact ⟨rfl, rfl⟩

theorem assign_of_error (h : (checkBinding name value declared).result = .error e)
    (s : ScopeStack τ) :
    (assign name value declared s).1.result = .error e ∧
      (assign name value declared s).2 = s := by
  have hlift : ((checkBinding name value declared : Action (ScopeStack τ) (Binding τ)) s).1.result =
      .error e := h
  unfold assign
  rw [Action.bind_of_error hlift]
  exact ⟨rfl, rfl⟩

omit [ClassHierarchy τ] in
theorem checkName_eq_ok_iff {n : String} :
    (checkBinding.checkName name).result = .ok n ↔ name = .text n ∧ n ≠ "" := by
  unfold checkBinding.checkName
  cases name with
  | text m =>
    by_cases hempty : m = ""
    · simp only [hempty, if_pos, Traced.failQuoting_ne_ok, false_iff]
      rintro ⟨hm, hn⟩
      cases hm
      exact hn rfl
    · simp only [hempty, if_neg, not_false_eq_true, Traced.result_pure]
      constructor
      · rintro ⟨⟩
        exact ⟨rfl, hempty⟩
      · rintro ⟨⟨⟩, -⟩
        rfl
  | _ => simp [Traced.failQuoting_ne_ok]

omit [ClassHierarchy τ] in
theorem checkSet_eq_ok_iff {n : String} {set : FuzzySet τ} :
    (checkBinding.checkSet n value).result = .ok set ↔ value = .set set := by
  cases value with
  | set t => simp [checkBinding.checkSet]
  | value v => simp [checkBinding.checkSet, Traced.failWith]

omit [ClassHierarchy τ] in
theorem validateTag_eq_ok_iff {role : String} {t : Option τ} :
    (validateTag declared role).result = .ok t ↔
      (∀ v, declared ≠ .other v) ∧ t = expectedTag declared := by
  cases declared with
  | absent => simp [validateTag, expectedTag, eq_comm]
  | tag u => simp [validateTag, expectedTag, eq_comm]
  | other v => simp [validateTag, Traced.failQuoting_ne_ok]

/-- A binding can be made of a name that is not empty, a set, and a tag above that of the set. -/
theorem checkBinding_eq_ok_iff :
    (checkBinding name value declared).result = .ok b ↔
      ∃ n set, name = .text n ∧ n ≠ "" ∧ value = .set set ∧
        (∀ v, declared ≠ .other v) ∧
        Binding.fits set.elementType (expectedTag declared) = true ∧
        b = ⟨n, set, expectedTag declared <|> set.elementType⟩ := by
  unfold checkBinding
  simp only [Traced.result_bind_eq_ok_iff, checkName_eq_ok_iff, checkSet_eq_ok_iff,
    validateTag_eq_ok_iff]
  constructor
  · rintro ⟨n, ⟨hname, hn⟩, set, hset, tag, ⟨hclass, rfl⟩, hrest⟩
    by_cases hfits : Binding.fits set.elementType (expectedTag declared) = true
    · rw [if_pos hfits, Traced.result_pure] at hrest
      cases hrest
      exact ⟨n, set, hname, hn, hset, hclass, hfits, rfl⟩
    · rw [if_neg hfits] at hrest
      cases hrest
  · rintro ⟨n, set, hname, hn, hset, hclass, hfits, rfl⟩
    refine ⟨n, ⟨hname, hn⟩, set, hset, _, ⟨hclass, rfl⟩, ?_⟩
    rw [if_pos hfits, Traced.result_pure]

end Assign

/-! ### Looking up -/

/-- The binding of a name in the first frame from the top that has one. -/
def Innermost (s : ScopeStack τ) (n : String) (b : Binding τ) : Prop :=
  ∃ passed f rest, s.inwardOut = passed ++ f :: rest ∧ (∀ g ∈ passed, g.get? n = none) ∧
    f.get? n = some b

theorem find?_eq_some_iff {n : String} {b : Binding τ} :
    s.find? n = some b ↔ s.Innermost n b := by
  rw [find?, List.findSome?_eq_some_iff]
  constructor
  · rintro ⟨passed, f, rest, hframes, hf, hpassed⟩
    exact ⟨passed, f, rest, hframes, hpassed, hf⟩
  · rintro ⟨passed, f, rest, hframes, hpassed, hf⟩
    exact ⟨passed, f, rest, hframes, hf, hpassed⟩

theorem ofMishap_nameOf_text (n : String) :
    (Traced.ofMishap (nameOf (.text n)) : Traced (Option String)) = pure (some n) := rfl

theorem lookup_of_some {n : String} {b : Binding τ} (h : s.find? n = some b) :
    s.lookup (.text n) = pure b := by
  rw [lookup, ofMishap_nameOf_text, pure_bind, Option.bind_some, h]

theorem result_lookup_of_none {n : String} (h : s.find? n = none) :
    (s.lookup (.text n)).result =
      .error (.failure (.undefinedVariable (.text n) (s.inwardOut.map Frame.name))) := by
  rw [lookup, ofMishap_nameOf_text, pure_bind, Option.bind_some, h]
  rfl

theorem eq_text_of_nameOf {name : Value} {n : String} (h : nameOf name = .ok (some n)) :
    name = .text n := by
  cases name with
  | text m =>
    cases h
    rfl
  | _ =>
    simp only [nameOf] at h
    split at h <;> cases h

theorem exists_of_lookup_eq_ok {name : Value} {b : Binding τ}
    (h : (s.lookup name).result = .ok b) : ∃ n, name = .text n ∧ s.find? n = some b := by
  rw [lookup, Traced.result_bind_eq_ok_iff] at h
  obtain ⟨text, htext, hrest⟩ := h
  cases hfound : text.bind s.find? with
  | none =>
    rw [hfound] at hrest
    exact absurd hrest (Traced.failQuoting_ne_ok _)
  | some c =>
    rw [hfound] at hrest
    cases hrest
    obtain ⟨n, rfl, hn⟩ := Option.bind_eq_some_iff.mp hfound
    refine ⟨n, eq_text_of_nameOf ?_, hn⟩
    cases hname : nameOf name with
    | ok found =>
      rw [hname] at htext
      cases htext
      rfl
    | error m =>
      rw [hname] at htext
      cases htext

section Get

variable [ClassHierarchy τ] {name : Value} {b : Binding τ}

theorem get_of_lookup_eq_pure (h : s.lookup name = pure b) :
    s.get name .absent = pure b.value := by
  have hfits : Binding.fits b.elementType none = true := by cases b.elementType <;> rfl
  rw [get, h, pure_bind]
  change (if Binding.fits b.elementType none = true then pure b.value else _ : Traced _) = _
  rw [if_pos hfits]

theorem result_get_of_error {e : Fault} (h : (s.lookup name).result = .error e)
    (expected : TagArgument τ) : (s.get name expected).result = .error e := by
  rw [get, Traced.bind_of_error h]

theorem result_get_tag (h : (s.lookup name).result = .ok b) (t : τ) :
    (s.get name (.tag t)).result =
      if Binding.fits b.elementType (some t) then .ok b.value
      else .error (.failure (.requestedMismatch name (ClassHierarchy.name t)
        (typeName b.elementType))) := by
  obtain ⟨n, rfl, -⟩ := exists_of_lookup_eq_ok h
  rw [get, Traced.bind_of_ok h]
  change (if Binding.fits b.elementType (some t) = true then pure b.value else _ :
    Traced _).result = _
  split <;> rfl

end Get

end FuzzyAlgebra.ScopeStack

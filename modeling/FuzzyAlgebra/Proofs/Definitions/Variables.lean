import FuzzyAlgebra.Proofs.Definitions.Load
import FuzzyAlgebra.Proofs.Definitions.Populate
import FuzzyAlgebra.Proofs.Scope.Typing
import Mathlib.Data.List.Nodup
import Mathlib.Data.List.TakeWhile

/-!
# Definitions as variables

The schema takes every text as a name, an assignment every text but the empty one. This is the only
difference between the two: definitions without the empty name are all bound, and of others only
those before the empty name are.
-/

namespace FuzzyAlgebra

namespace ScopeStack

variable {τ : Type} [ClassHierarchy τ]

theorem result_checkBinding_of_ne {name : String} (h : name ≠ "") (set : FuzzySet τ) :
    (checkBinding (.text name) (.set set) .absent).result =
      .ok ⟨name, set, set.elementType⟩ := by
  have hfits : Binding.fits set.elementType (expectedTag .absent) = true := by
    cases set.elementType <;> rfl
  exact checkBinding_eq_ok_iff.mpr ⟨name, set, rfl, h, rfl, by simp, hfits, rfl⟩

theorem result_checkBinding_empty (value : Operand τ) (declared : TagArgument τ) :
    (checkBinding (.text "") value declared).result =
      .error (.failure (.invalidName (.text ""))) := by
  have hname : (checkBinding.checkName (.text "")).result =
      .error (.failure (.invalidName (.text ""))) := by
    rw [checkBinding.checkName, if_pos rfl]
    rfl
  rw [checkBinding, Traced.bind_of_error hname]

omit [ClassHierarchy τ] in
theorem innermost_of_current {s : ScopeStack τ} {n : String} {b : Binding τ}
    (h : s.current.get? n = some b) : s.Innermost n b :=
  ⟨[], s.current, s.outer, s.inwardOut_eq_cons, by simp, h⟩

end ScopeStack

namespace Definitions

variable {τ : Type}

/-- The sets before the first one with the empty name. -/
def beforeEmptyName (sets : List (String × FuzzySet τ)) : List (String × FuzzySet τ) :=
  sets.takeWhile fun entry => entry.1 ≠ ""

/-- Untyped assignments of the sets make these bindings. -/
def bindings (sets : List (String × FuzzySet τ)) : List (Binding τ) :=
  sets.map fun (name, s) => ⟨name, s, s.elementType⟩

theorem map_name_bindings (sets : List (String × FuzzySet τ)) :
    (bindings sets).map Binding.name = sets.map Prod.fst :=
  List.map_map

theorem beforeEmptyName_eq_self {sets : List (String × FuzzySet τ)} (h : "" ∉ sets.map Prod.fst) :
    beforeEmptyName sets = sets := by
  refine List.takeWhile_eq_self_iff.mpr fun entry hentry => decide_eq_true ?_
  intro hname
  exact h (hname ▸ List.mem_map_of_mem hentry)

variable [ClassHierarchy τ]

theorem assignAll_eq (sets : List (String × FuzzySet τ)) (s : ScopeStack τ) :
    (assignAll sets s).1.result =
      (if "" ∈ sets.map Prod.fst then .error (.failure (.invalidName (.text ""))) else .ok ()) ∧
    (assignAll sets s).2 = s.mapCurrent fun f => f.bindAll (bindings (beforeEmptyName sets)) := by
  induction sets generalizing s with
  | nil => exact ⟨rfl, s.mapCurrent_self.symm⟩
  | cons entry rest ih =>
    obtain ⟨name, set⟩ := entry
    rw [assignAll]
    by_cases hname : name = ""
    · subst hname
      obtain ⟨hresult, hstate⟩ := ScopeStack.assign_of_error
        (ScopeStack.result_checkBinding_empty (.set set) .absent) s
      have hmem : "" ∈ (("", set) :: rest).map Prod.fst := List.mem_cons_self
      have hnone : beforeEmptyName (("", set) :: rest) = [] := List.takeWhile_cons_of_neg (by simp)
      rw [Action.bind_of_error hresult, hstate, if_pos hmem, hnone]
      exact ⟨rfl, s.mapCurrent_self.symm⟩
    · obtain ⟨hresult, hstate⟩ := ScopeStack.assign_of_ok
        (ScopeStack.result_checkBinding_of_ne hname set) s
      obtain ⟨ihresult, ihstate⟩ := ih (s.mapCurrent fun f => f.bind ⟨name, set, set.elementType⟩)
      have hmem : "" ∈ ((name, set) :: rest).map Prod.fst ↔ "" ∈ rest.map Prod.fst := by
        simp [Ne.symm hname]
      have hfirst : beforeEmptyName ((name, set) :: rest) = (name, set) :: beforeEmptyName rest :=
        List.takeWhile_cons_of_pos (by simpa using hname)
      rw [Action.result_bind_of_ok hresult, Action.state_bind_of_ok hresult, hstate, ihresult,
        ihstate, ScopeStack.mapCurrent_mapCurrent, hfirst]
      refine ⟨?_, rfl⟩
      by_cases hrest : "" ∈ rest.map Prod.fst
      · rw [if_pos hrest, if_pos (hmem.mpr hrest)]
      · rw [if_neg hrest, if_neg (mt hmem.mp hrest)]

/-- What goes wrong in the assignments can be written, so the log around them does not hide it. -/
theorem result_populate_of_ok {number : τ} {key : Nat} {ds : Definitions}
    {sets : List (String × FuzzySet τ)} (h : (build number key ds).result = .ok sets)
    (s : ScopeStack τ) :
    (populate number key ds s).1.result = (assignAll sets s).1.result.map fun _ => sets := by
  have hbuild : ((build number key ds : Action (ScopeStack τ) _) s).1.result = .ok sets := h
  have hstate : ((build number key ds : Action (ScopeStack τ) _) s).2 = s := rfl
  rw [populate, (CallLog.around_eq _ _ _ _ _ _ _ s).1, Action.result_bind_of_ok hbuild, hstate,
    Action.result_map]
  refine CallLog.result_leave_standard _ _ _ _ fun e he => ?_
  rw [(assignAll_eq sets s).1] at he
  split at he
  · cases he
    exact ⟨_, rfl⟩
  · cases he

/-- The second stack is the first one with the sets bound in its innermost frame, each as a set over
the numbers, and nothing else is different. -/
structure Binds (number : τ) (sets : List (String × FuzzySet τ)) (s s' : ScopeStack τ) : Prop where
  outer : s'.outer = s.outer
  key : s'.current.key = s.current.key
  name : s'.current.name = s.current.name
  bound : ∀ entry ∈ sets, s'.current.get? entry.1 = some ⟨entry.1, entry.2, some number⟩
  found : ∀ entry ∈ sets, (s'.get (.text entry.1) (.tag number)).result = .ok entry.2
  kept : ∀ n, n ∉ sets.map Prod.fst → s'.current.get? n = s.current.get? n

theorem binds_mapCurrent [LawfulHierarchy τ] {number : τ} {sets : List (String × FuzzySet τ)}
    (hnodup : (sets.map Prod.fst).Nodup)
    (htypes : ∀ entry ∈ sets, entry.2.elementType = some number) (s : ScopeStack τ) :
    Binds number sets s (s.mapCurrent fun f => f.bindAll (bindings sets)) := by
  have hbound : ∀ entry ∈ sets, (s.mapCurrent fun f => f.bindAll (bindings sets)).current.get?
      entry.1 = some ⟨entry.1, entry.2, some number⟩ := by
    intro entry hentry
    have hmem : (⟨entry.1, entry.2, some number⟩ : Binding τ) ∈ (bindings sets).reverse := by
      rw [List.mem_reverse, ← htypes entry hentry]
      exact List.mem_map_of_mem hentry
    have hnames : ((bindings sets).reverse.map Binding.name).Nodup := by
      rw [List.map_reverse, map_name_bindings]
      exact List.nodup_reverse.mpr hnodup
    rw [ScopeStack.current_mapCurrent, Frame.get?_bindAll, Frame.find?_of_mem hnames hmem]
    rfl
  refine ⟨ScopeStack.outer_mapCurrent _ s, ?_, ?_, hbound, ?_, ?_⟩
  · rw [ScopeStack.current_mapCurrent, Frame.key_bindAll]
  · rw [ScopeStack.current_mapCurrent, Frame.name_bindAll]
  · intro entry hentry
    have hinnermost := ScopeStack.innermost_of_current (hbound entry hentry)
    have hfits : Binding.fits (some number) (some number) = true := LawfulHierarchy.refl number
    rw [ScopeStack.result_get_tag hinnermost.result_lookup, if_pos hfits]
  · intro n hn
    have hnone : (bindings sets).reverse.find? (fun b => b.name = n) = none := by
      rw [List.find?_eq_none]
      intro b hb hname
      refine hn ?_
      rw [← map_name_bindings]
      exact List.mem_map.mpr ⟨b, List.mem_reverse.mp hb, by simpa using hname⟩
    rw [ScopeStack.current_mapCurrent, Frame.get?_bindAll, hnone, Option.none_or]

/-- **Populating from loaded definitions.** All defined sets can be built. If no definition has the
empty name, they are bound in the innermost frame, each found there under its name, and returned. If
one has, populating fails at that name, after it has bound the sets before it. -/
theorem populate_of_load [LawfulHierarchy τ] {document : Value} {ds : Definitions}
    (h : (load document).result = .ok ds) (number : τ) (key : Nat) (s : ScopeStack τ) :
    ∃ sets, (build number key ds).result = .ok sets ∧ sets.map Prod.fst = ds.names ∧
      ("" ∉ ds.names →
        (populate number key ds s).1.result = .ok sets ∧
          Binds number sets s (populate number key ds s).2) ∧
      ("" ∈ ds.names →
        (populate number key ds s).1.result = .error (.failure (.invalidName (.text ""))) ∧
          Binds number (beforeEmptyName sets) s (populate number key ds s).2) := by
  have hsound := sound_of_load h
  obtain ⟨sets, hbuild, hnames, htypes⟩ := exists_build_of_sound number key hsound.definitions
  have hnodup : (sets.map Prod.fst).Nodup := by
    rw [hnames]
    exact hsound.nodup
  obtain ⟨hresult, hstate⟩ := assignAll_eq sets s
  refine ⟨sets, hbuild, hnames, ?_, ?_⟩
  · intro hempty
    rw [← hnames] at hempty
    rw [result_populate_of_ok hbuild, state_populate_of_ok hbuild, hresult, hstate, if_neg hempty,
      beforeEmptyName_eq_self hempty]
    exact ⟨rfl, binds_mapCurrent hnodup htypes s⟩
  · intro hempty
    rw [← hnames] at hempty
    have hbefore : beforeEmptyName sets <+: sets := List.takeWhile_prefix _
    rw [result_populate_of_ok hbuild, state_populate_of_ok hbuild, hresult, hstate, if_pos hempty]
    refine ⟨rfl, binds_mapCurrent ?_ ?_ s⟩
    · exact hnodup.sublist (hbefore.sublist.map Prod.fst)
    · exact fun entry hentry => htypes entry (hbefore.subset hentry)

/-- Two triangles become variables of an inner frame. -/
theorem populate_of_load_two_triangles :
    let triangle (a b c : Int) : Value := .dict [(.text "type", .text "triangular"),
      (.text "parameters", .list [.int a, .int b, .int c])]
    let document : Value :=
      .dict [(.text "warm", triangle 15 22 30), (.text "hot", triangle 25 35 40)]
    let s : ScopeStack ElementType := ScopeStack.empty.push (.empty 1 "rule")
    ∃ ds sets, (load document).result = .ok ds ∧ ds.names = ["warm", "hot"] ∧
      (populate .float 2 ds s).1.result = .ok sets ∧ sets.map Prod.fst = ["warm", "hot"] ∧
      Binds .float sets s (populate .float 2 ds s).2 := by
  intro triangle document s
  have hnames : (load document).result.toOption.map names = some ["warm", "hot"] := by
    decide +kernel
  cases hload : (load document).result with
  | error e =>
    rw [hload] at hnames
    cases hnames
  | ok ds =>
    rw [hload] at hnames
    have hnames : ds.names = ["warm", "hot"] := Option.some.inj hnames
    obtain ⟨sets, -, hsets, hall, -⟩ := populate_of_load hload ElementType.float 2 s
    obtain ⟨hresult, hbinds⟩ := hall (by rw [hnames]; decide)
    exact ⟨ds, sets, rfl, hnames, hresult, hsets.trans hnames, hbinds⟩

/-- A triangle under the empty name fails, and leaves the one before it bound. -/
theorem populate_stops_at_empty_name :
    let triangle (a b c : Int) : Value := .dict [(.text "type", .text "triangular"),
      (.text "parameters", .list [.int a, .int b, .int c])]
    let document : Value := .dict [(.text "warm", triangle 15 22 30), (.text "", triangle 0 1 2)]
    let s : ScopeStack ElementType := ScopeStack.empty.push (.empty 1 "rule")
    ∃ ds, (load document).result = .ok ds ∧
      (populate .float 2 ds s).1.result = .error (.failure (.invalidName (.text ""))) ∧
      s.current.names = [] ∧ (populate .float 2 ds s).2.current.names = ["warm"] := by
  intro triangle document s
  have hnames : (load document).result.toOption.map (fun ds =>
      (ds.names, (populate .float 2 ds s).2.current.names)) = some (["warm", ""], ["warm"]) := by
    decide +kernel
  cases hload : (load document).result with
  | error e =>
    rw [hload] at hnames
    cases hnames
  | ok ds =>
    rw [hload] at hnames
    obtain ⟨hnames, hbound⟩ := Prod.mk.inj (Option.some.inj hnames)
    obtain ⟨sets, hbuild, hsets, -⟩ :=
      exists_build_of_sound ElementType.float 2 (sound_of_load hload).definitions
    have hempty : "" ∈ sets.map Prod.fst := by
      rw [hsets, hnames]
      decide
    refine ⟨ds, rfl, ?_, rfl, hbound⟩
    rw [result_populate_of_ok hbuild, (assignAll_eq sets s).1, if_pos hempty]
    rfl

end Definitions

end FuzzyAlgebra

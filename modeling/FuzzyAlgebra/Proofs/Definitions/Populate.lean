import FuzzyAlgebra.Definitions.Load
import FuzzyAlgebra.Proofs.Logging.CallLog
import FuzzyAlgebra.Proofs.Scope.Run

/-!
# Populating a frame

Populating builds all sets before it binds the first one. The bindings are those of a row of
assignments, up to the first that fails.
-/

namespace FuzzyAlgebra.Definitions

variable {τ : Type} [ClassHierarchy τ]

def assignments (sets : List (String × FuzzySet τ)) : List (ScopeCall τ) :=
  sets.map fun (name, s) => .assign (.text name) (.set s) .absent

theorem state_assignAll (key : Nat) (sets : List (String × FuzzySet τ)) (s : ScopeStack τ) :
    (assignAll sets s).2 =
      s.mapCurrent fun f => f.bindAll (ScopeCall.madeBy key (assignments sets) s) := by
  induction sets generalizing s with
  | nil => exact s.mapCurrent_self.symm
  | cons entry rest ih =>
    obtain ⟨name, set⟩ := entry
    rw [assignAll, assignments, List.map_cons, ScopeCall.madeBy]
    cases hcheck : (ScopeStack.checkBinding (.text name) (.set set) .absent).result with
    | ok b =>
      obtain ⟨hresult, hstack⟩ := ScopeStack.assign_of_ok hcheck s
      obtain ⟨-, hperform⟩ := ScopeCall.perform_assign_of_ok key s hcheck
      rw [ScopeCall.made_assign_of_ok key s hcheck, Action.state_bind_of_ok hresult, hstack,
        hperform, ih, ScopeStack.mapCurrent_mapCurrent]
      rfl
    | error e =>
      obtain ⟨hresult, hstack⟩ := ScopeStack.assign_of_error hcheck s
      rw [ScopeCall.made_assign_of_error key s hcheck, Action.state_bind_of_error hresult, hstack]
      exact s.mapCurrent_self.symm

variable {number : τ} {key : Nat} {ds : Definitions}

theorem state_populate_of_error {e : Fault} (h : (build number key ds).result = .error e)
    (s : ScopeStack τ) : (populate number key ds s).2 = s := by
  have hbuild : ((build number key ds : Action (ScopeStack τ) _) s).1.result = .error e := h
  rw [populate, (CallLog.around_eq _ _ _ _ _ _ _ s).2.1, Action.state_bind_of_error hbuild]
  rfl

theorem state_populate_of_ok {sets : List (String × FuzzySet τ)}
    (h : (build number key ds).result = .ok sets) (s : ScopeStack τ) :
    (populate number key ds s).2 = (assignAll sets s).2 := by
  have hbuild : ((build number key ds : Action (ScopeStack τ) _) s).1.result = .ok sets := h
  rw [populate, (CallLog.around_eq _ _ _ _ _ _ _ s).2.1, Action.state_bind_of_ok hbuild,
    Action.state_map]
  rfl

end FuzzyAlgebra.Definitions

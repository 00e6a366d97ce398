import FuzzyAlgebra.Proofs.Definitions.Populate
import FuzzyAlgebra.Proofs.Gate

/-!
# Operations that work on the frames

Besides the calls that change the frames directly there are look-ups, the population from
definitions, and the instructions of the gate. However an operation ends, it is one of three things:
it puts an empty frame on top, it takes the top frame off, or it binds in the top frame what it
assigned, which may be nothing.
-/

namespace FuzzyAlgebra

inductive ScopeOperation (τ : Type) where
  | call (c : ScopeCall τ)
  | lookup (name : Value)
  | get (name : Value) (expected : TagArgument τ)
  | populate (number : τ) (firstKey : Nat) (definitions : Definitions)
  | evaluate (instruction : Instruction τ)

inductive Response (τ : Type) where
  | frame (f : Option (Frame τ))
  | binding (b : Binding τ)
  | set (s : FuzzySet τ)
  | sets (s : List (String × FuzzySet τ))
  | evaluation (e : Evaluation τ)

namespace ScopeOperation

variable {τ : Type} [ClassHierarchy τ]

/-- Runs the operation; a frame that it enters gets the key. -/
def perform (key : Nat) : ScopeOperation τ → Action (Gate τ) (Response τ)
  | call c => do
    let frame ← Gate.onScopes (c.perform key)
    pure (.frame frame)
  | lookup name => do
    let b ← Gate.onScopes (.inspect fun s => s.lookup name)
    pure (.binding b)
  | get name expected => do
    let s ← Gate.onScopes (.inspect fun s => s.get name expected)
    pure (.set s)
  | populate number firstKey definitions => do
    let sets ← Gate.onScopes (Definitions.populate number firstKey definitions)
    pure (.sets sets)
  | evaluate instruction => do
    let e ← Gate.evaluate instruction
    pure (.evaluation e)

/-- The assignments that the operation makes, as long as they succeed. -/
def assignments : ScopeOperation τ → List (ScopeCall τ)
  | call (.assign name value declared) => [.assign name value declared]
  | evaluate (.assign name set declared) => [.assign name set declared]
  | populate number firstKey definitions =>
    match (Definitions.build number firstKey definitions).result with
    | .ok sets => Definitions.assignments sets
    | .error _ => []
  | _ => []

def made (key : Nat) (op : ScopeOperation τ) (g : Gate τ) : List (Binding τ) :=
  ScopeCall.madeBy key op.assignments g.scopes

/-! ### Entering and leaving -/

theorem state_perform_call (key : Nat) (c : ScopeCall τ) (g : Gate τ) :
    ((call c).perform key g).2 = { g with scopes := (c.perform key g.scopes).2 } :=
  Action.state_map _ _ g

theorem result_perform_call (key : Nat) (c : ScopeCall τ) (g : Gate τ) :
    ((call c).perform key g).1.result = (c.perform key g.scopes).1.result.map .frame :=
  Action.result_map _ _ g

theorem perform_enter (key : Nat) (name : String) (g : Gate τ) :
    ((call (.enter name)).perform key g).1.result = .ok (.frame (some (.empty key name))) ∧
      ((call (.enter name)).perform key g).2 =
        { g with scopes := g.scopes.push (.empty key name) } := by
  obtain ⟨hresult, hstack⟩ := ScopeCall.perform_enter key name g.scopes
  rw [result_perform_call, state_perform_call, hresult, hstack]
  exact ⟨rfl, rfl⟩

theorem perform_exit_of_inner (key : Nat) {g : Gate τ} {f : Frame τ} {rest : List (Frame τ)}
    (h : g.scopes.inner = f :: rest) :
    ((call .exit).perform key g).1.result = .ok (.frame (some f)) ∧
      ((call .exit).perform key g).2 = { g with scopes := ⟨g.scopes.root, rest⟩ } := by
  obtain ⟨hresult, hstack⟩ := ScopeCall.perform_exit_of_inner key h
  rw [result_perform_call, state_perform_call, hresult, hstack]
  exact ⟨rfl, rfl⟩

/-! ### Binding -/

section Binding

variable {key : Nat} {g : Gate τ}

def bound (bs : List (Binding τ)) (g : Gate τ) : Gate τ :=
  { g with scopes := g.scopes.mapCurrent fun f => f.bindAll bs }

omit [ClassHierarchy τ] in
@[simp]
theorem bound_nil (g : Gate τ) : bound [] g = g := by
  change ({ g with scopes := g.scopes.mapCurrent fun f => f } : Gate τ) = g
  rw [ScopeStack.mapCurrent_self]

theorem bound_assign (key : Nat) (name : Value) (value : Operand τ) (declared : TagArgument τ)
    (g : Gate τ) :
    bound (ScopeCall.madeBy key [.assign name value declared] g.scopes) g =
      { g with scopes := (ScopeStack.assign name value declared g.scopes).2 } := by
  rw [ScopeCall.madeBy]
  cases hcheck : (ScopeStack.checkBinding name value declared).result with
  | ok b =>
    rw [ScopeCall.made_assign_of_ok key _ hcheck, (ScopeStack.assign_of_ok hcheck g.scopes).2]
    rfl
  | error e =>
    rw [ScopeCall.made_assign_of_error key _ hcheck, (ScopeStack.assign_of_error hcheck g.scopes).2]
    exact bound_nil g

theorem state_perform_assign (name : Value) (value : Operand τ) (declared : TagArgument τ) :
    ((call (.assign name value declared)).perform key g).2 =
      bound ((call (.assign name value declared)).made key g) g := by
  rw [state_perform_call, made, assignments, bound_assign, ScopeCall.perform, Action.state_map]

theorem state_perform_lookup (name : Value) :
    ((lookup name).perform key g).2 = bound ((lookup name).made key g) g := by
  have hstate : ((lookup name).perform key g).2 = g := Action.state_map _ _ g
  rw [hstate]
  exact (bound_nil g).symm

theorem state_perform_get (name : Value) (expected : TagArgument τ) :
    ((get name expected).perform key g).2 = bound ((get name expected).made key g) g := by
  have hstate : ((get name expected).perform key g).2 = g := Action.state_map _ _ g
  rw [hstate]
  exact (bound_nil g).symm

theorem state_perform_populate (number : τ) (firstKey : Nat) (definitions : Definitions) :
    ((populate number firstKey definitions).perform key g).2 =
      bound ((populate number firstKey definitions).made key g) g := by
  have hstate : ((populate number firstKey definitions).perform key g).2 =
      { g with scopes := (Definitions.populate number firstKey definitions g.scopes).2 } :=
    Action.state_map _ _ g
  rw [hstate, made, assignments]
  cases hbuild : (Definitions.build number firstKey definitions).result with
  | ok sets =>
    rw [Definitions.state_populate_of_ok hbuild, Definitions.state_assignAll key]
    rfl
  | error e =>
    rw [Definitions.state_populate_of_error hbuild]
    exact (bound_nil g).symm

theorem state_perform_evaluate (i : Instruction τ) :
    ((evaluate i).perform key g).2 = bound ((evaluate i).made key g) g := by
  have hstate : ((evaluate i).perform key g).2 = (Gate.evaluate i g).2 := Action.state_map _ _ g
  rw [hstate, Gate.state_evaluate, made]
  cases i with
  | assign name set declared =>
    rw [Gate.state_perform_assign, assignments, bound_assign]
  | get name expected =>
    rw [Gate.state_perform_get]
    exact (bound_nil g).symm
  | test set element =>
    rw [Gate.state_perform_test]
    exact (bound_nil g).symm
  | other v =>
    rw [Gate.state_perform_other]
    exact (bound_nil g).symm

end Binding

/-- An operation that neither enters nor leaves binds in the innermost frame what it made. -/
theorem state_perform_of_ne {op : ScopeOperation τ} (henter : ∀ name, op ≠ call (.enter name))
    (hexit : op ≠ call .exit) (key : Nat) (g : Gate τ) :
    (op.perform key g).2 = bound (op.made key g) g := by
  cases op with
  | call c =>
    cases c with
    | enter name => exact absurd rfl (henter name)
    | exit => exact absurd rfl hexit
    | assign name value declared => exact state_perform_assign name value declared
  | lookup name => exact state_perform_lookup name
  | get name expected => exact state_perform_get name expected
  | populate number firstKey definitions =>
    exact state_perform_populate number firstKey definitions
  | evaluate i => exact state_perform_evaluate i

end ScopeOperation

end FuzzyAlgebra

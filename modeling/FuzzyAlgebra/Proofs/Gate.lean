import FuzzyAlgebra.Gate
import FuzzyAlgebra.Proofs.Scope.Stack

/-!
# What instructions do to the state

Instructions leave the log contexts as they were. The only one that touches the frames is the
assignment, which does what the assignment on the stack does.
-/

namespace FuzzyAlgebra.Gate

variable {τ α : Type}

theorem state_onScopes (act : Action (ScopeStack τ) α) (g : Gate τ) :
    (onScopes act g).2 = { g with scopes := (act g.scopes).2 } := rfl

theorem state_inContext (c : LogContext) (act : Action (Gate τ) α) (g : Gate τ) :
    (inContext c act g).2 =
      ⟨(act { g with contexts := g.contexts.push c }).2.scopes,
        (act { g with contexts := g.contexts.push c }).2.contexts.pop⟩ := rfl

variable [ClassHierarchy τ]

theorem state_evaluate (i : Instruction τ) (g : Gate τ) :
    (evaluate i g).2 = { g with scopes := (perform i g.scopes).2 } := by
  rw [evaluate, state_inContext, Action.state_map, state_onScopes]
  rfl

theorem state_perform_assign (name : Value) (set : Operand τ) (declared : TagArgument τ)
    (s : ScopeStack τ) :
    (perform (.assign name set declared) s).2 = (ScopeStack.assign name set declared s).2 :=
  Action.state_map _ _ _

theorem state_perform_get (name : Value) (expected : TagArgument τ) (s : ScopeStack τ) :
    (perform (.get name expected) s).2 = s :=
  Action.state_map _ _ _

theorem state_perform_test (set : Operand τ) (element : Value) (s : ScopeStack τ) :
    (perform (.test set element) s).2 = s :=
  Action.state_map _ _ _

theorem state_perform_other (v : Value) (s : ScopeStack τ) : (perform (.other v) s).2 = s := rfl

end FuzzyAlgebra.Gate

import FuzzyAlgebra.Proofs.Scope.Stack

/-!
# Runs of calls on a stack

A run makes calls on a fresh stack, one after the other, and goes on after those that fail. It keeps
a history beside the stack: each assignment that succeeded, with the frame it was made in. Frames are
told apart by their keys, and the call of a number gives that number to a frame it enters, so no key
is used twice.
-/

namespace FuzzyAlgebra

inductive ScopeCall (τ : Type) where
  | enter (name : String)
  | exit
  | assign (name : Value) (value : Operand τ) (declared : TagArgument τ)

namespace ScopeCall

variable {τ : Type}

/-- The binding that an assignment of a set to a name asks for. -/
def requested : ScopeCall τ → Option (Binding τ)
  | assign (.text name) (.set s) declared =>
    some ⟨name, s, ScopeStack.expectedTag declared <|> s.elementType⟩
  | _ => none

variable [ClassHierarchy τ]

/-- Makes the call. It answers with the frame that it entered or left, and a frame that it enters
gets the key. -/
def perform (key : Nat) : ScopeCall τ → Action (ScopeStack τ) (Option (Frame τ))
  | enter name => do
    let frame ← ScopeStack.enter key name
    pure (some frame)
  | exit => do
    let frame ← ScopeStack.exit
    pure (some frame)
  | assign name value declared => do
    ScopeStack.assign name value declared
    pure none

/-- The binding that the call makes on a stack: the requested one, if the call succeeds. -/
def made (key : Nat) (c : ScopeCall τ) (s : ScopeStack τ) : Option (Binding τ) :=
  match (c.perform key s).1.result with
  | .ok _ => c.requested
  | .error _ => none

/-- The bindings that a row of calls makes, up to the first call that makes none. -/
def madeBy (key : Nat) : List (ScopeCall τ) → ScopeStack τ → List (Binding τ)
  | [], _ => []
  | c :: rest, s =>
    match c.made key s with
    | some b => b :: madeBy key rest (c.perform key s).2
    | none => []

theorem perform_enter (key : Nat) (name : String) (s : ScopeStack τ) :
    ((enter name).perform key s).1.result = .ok (some (.empty key name)) ∧
      ((enter name).perform key s).2 = s.push (.empty key name) := by
  obtain ⟨hresult, hstack⟩ := ScopeStack.enter_eq key name s
  rw [perform, Action.bind_of_ok hresult]
  exact ⟨rfl, hstack⟩

theorem perform_exit_of_root (key : Nat) {s : ScopeStack τ} (h : s.inner = []) :
    (exit.perform key s).1.result = .error (.failure (.cannotExitRoot s.depth)) ∧
      (exit.perform key s).2 = s := by
  obtain ⟨hresult, hstack⟩ := ScopeStack.exit_of_root h
  rw [perform, Action.bind_of_error hresult]
  exact ⟨rfl, hstack⟩

theorem perform_exit_of_inner (key : Nat) {s : ScopeStack τ} {f : Frame τ}
    {rest : List (Frame τ)} (h : s.inner = f :: rest) :
    (exit.perform key s).1.result = .ok (some f) ∧
      (exit.perform key s).2 = ⟨s.root, rest⟩ := by
  obtain ⟨hresult, hstack⟩ := ScopeStack.exit_of_inner h
  rw [perform, Action.bind_of_ok hresult]
  exact ⟨rfl, hstack⟩

variable {name : Value} {value : Operand τ} {declared : TagArgument τ} {e : Fault}

theorem perform_assign_of_ok (key : Nat) (s : ScopeStack τ) {b : Binding τ}
    (h : (ScopeStack.checkBinding name value declared).result = .ok b) :
    ((assign name value declared).perform key s).1.result = .ok none ∧
      ((assign name value declared).perform key s).2 = s.mapCurrent fun f => f.bind b := by
  obtain ⟨hresult, hstack⟩ := ScopeStack.assign_of_ok h s
  rw [perform, Action.bind_of_ok hresult]
  exact ⟨rfl, hstack⟩

theorem perform_assign_of_error (key : Nat) (s : ScopeStack τ)
    (h : (ScopeStack.checkBinding name value declared).result = .error e) :
    ((assign name value declared).perform key s).1.result = .error e ∧
      ((assign name value declared).perform key s).2 = s := by
  obtain ⟨hresult, hstack⟩ := ScopeStack.assign_of_error h s
  rw [perform, Action.bind_of_error hresult]
  exact ⟨rfl, hstack⟩

theorem made_assign_of_ok (key : Nat) (s : ScopeStack τ) {b : Binding τ}
    (h : (ScopeStack.checkBinding name value declared).result = .ok b) :
    (assign name value declared).made key s = some b := by
  obtain ⟨hresult, -⟩ := perform_assign_of_ok key s h
  obtain ⟨n, set, rfl, -, rfl, -, -, rfl⟩ := ScopeStack.checkBinding_eq_ok_iff.mp h
  rw [made, hresult, requested]

theorem made_assign_of_error (key : Nat) (s : ScopeStack τ)
    (h : (ScopeStack.checkBinding name value declared).result = .error e) :
    (assign name value declared).made key s = none := by
  obtain ⟨hresult, -⟩ := perform_assign_of_error key s h
  rw [made, hresult]

theorem made_enter (key : Nat) (name : String) (s : ScopeStack τ) :
    (enter name).made key s = none := by
  rw [made, (perform_enter key name s).1]
  rfl

theorem made_exit (key : Nat) (s : ScopeStack τ) : exit.made key s = none := by
  rw [made]
  split <;> rfl

end ScopeCall

/-- An assignment that succeeded, with the key of the frame that was innermost then. -/
structure Assignment (τ : Type) where
  frame : Nat
  binding : Binding τ

/-- A stack, the number of calls that led to it, and the assignments among them that succeeded, the
most recent first. -/
structure ScopeRun (τ : Type) where
  stack : ScopeStack τ
  calls : Nat
  assigned : List (Assignment τ)

namespace ScopeRun

variable {τ : Type}

def start : ScopeRun τ := ⟨.empty, 0, []⟩

variable [ClassHierarchy τ]

def step (run : ScopeRun τ) (c : ScopeCall τ) : ScopeRun τ where
  stack := (c.perform (run.calls + 1) run.stack).2
  calls := run.calls + 1
  assigned :=
    match c.made (run.calls + 1) run.stack with
    | some b => ⟨run.stack.current.key, b⟩ :: run.assigned
    | none => run.assigned

def after (calls : List (ScopeCall τ)) : ScopeRun τ := calls.foldl step start

/-- What holds of a fresh stack and is kept by every call holds after every run. -/
theorem after_induction {motive : ScopeRun τ → Prop} (hstart : motive start)
    (hstep : ∀ run c, motive run → motive (run.step c)) (calls : List (ScopeCall τ)) :
    motive (after calls) :=
  List.foldlRecOn calls step hstart fun run hrun c _ => hstep run c hrun

/-- All that a call can do to a run. -/
theorem step_cases (run : ScopeRun τ) (c : ScopeCall τ) :
    (∃ name, run.step c =
      ⟨run.stack.push (.empty (run.calls + 1) name), run.calls + 1, run.assigned⟩) ∨
    (∃ f rest, run.stack.inner = f :: rest ∧
      run.step c = ⟨⟨run.stack.root, rest⟩, run.calls + 1, run.assigned⟩) ∨
    (∃ name value declared b, (ScopeStack.checkBinding name value declared).result = .ok b ∧
      run.step c = ⟨run.stack.mapCurrent fun f => f.bind b, run.calls + 1,
        ⟨run.stack.current.key, b⟩ :: run.assigned⟩) ∨
    run.step c = ⟨run.stack, run.calls + 1, run.assigned⟩ := by
  cases c with
  | enter name =>
    obtain ⟨-, hstack⟩ := ScopeCall.perform_enter (run.calls + 1) name run.stack
    refine .inl ⟨name, ?_⟩
    rw [step, ScopeCall.made_enter, hstack]
  | exit =>
    cases hinner : run.stack.inner with
    | nil =>
      obtain ⟨-, hstack⟩ := ScopeCall.perform_exit_of_root (run.calls + 1) hinner
      refine .inr (.inr (.inr ?_))
      rw [step, ScopeCall.made_exit, hstack]
    | cons f rest =>
      obtain ⟨-, hstack⟩ := ScopeCall.perform_exit_of_inner (run.calls + 1) hinner
      refine .inr (.inl ⟨f, rest, rfl, ?_⟩)
      rw [step, ScopeCall.made_exit, hstack]
  | assign name value declared =>
    cases hcheck : (ScopeStack.checkBinding name value declared).result with
    | ok b =>
      obtain ⟨-, hstack⟩ := ScopeCall.perform_assign_of_ok (run.calls + 1) run.stack hcheck
      refine .inr (.inr (.inl ⟨name, value, declared, b, hcheck, ?_⟩))
      rw [step, ScopeCall.made_assign_of_ok _ _ hcheck, hstack]
    | error e =>
      obtain ⟨-, hstack⟩ := ScopeCall.perform_assign_of_error (run.calls + 1) run.stack hcheck
      refine .inr (.inr (.inr ?_))
      rw [step, ScopeCall.made_assign_of_error _ _ hcheck, hstack]

end ScopeRun

end FuzzyAlgebra

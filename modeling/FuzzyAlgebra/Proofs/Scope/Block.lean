import FuzzyAlgebra.Proofs.Scope.Bracket
import FuzzyAlgebra.Session

/-!
# Blocks in a frame of their own

A block enters a frame, runs its body, and leaves the innermost frame however the body ended. What a
body does next can depend on what has come of its operations, and it can end with a fault at every
point; a block inside a body is entering, the inner body, and leaving. While a body leaves no frames
but those it entered itself, the frame of the block stays on the stack below them. The block leaves
one frame only, so if the body left frames open, one of these comes off in its place.
-/

namespace FuzzyAlgebra

/-- A body: it ends, or it runs an operation and goes on with what came of it. -/
inductive ScopeProgram (τ α : Type) where
  | finish (outcome : Except Fault α)
  | call (op : ScopeOperation τ) (next : Except Fault (Response τ) → ScopeProgram τ α)

variable {τ α : Type} [ClassHierarchy τ]

namespace ScopeOperation

/-- The operation on a stack alone; the log contexts are given. -/
def onStack (contexts : ContextStack) (key : Nat) (op : ScopeOperation τ) :
    Action (ScopeStack τ) (Response τ) :=
  (op.perform key).onPart (fun scopes => ⟨scopes, contexts⟩) fun _ g => g.scopes

theorem contexts_perform (key : Nat) (op : ScopeOperation τ) (g : Gate τ) :
    (op.perform key g).2.contexts = g.contexts := by
  cases op with
  | call c => rw [state_perform_call]
  | lookup name => rw [state_perform_lookup, bound]
  | get name expected => rw [state_perform_get, bound]
  | populate number firstKey definitions => rw [state_perform_populate, bound]
  | evaluate i => rw [state_perform_evaluate, bound]

theorem state_perform_eq_onStack (contexts : ContextStack) (key : Nat) (op : ScopeOperation τ)
    (s : ScopeStack τ) :
    (op.perform key ⟨s, contexts⟩).2 = ⟨(op.onStack contexts key s).2, contexts⟩ := by
  have hcontexts := contexts_perform key op ⟨s, contexts⟩
  have hscopes : (op.onStack contexts key s).2 = (op.perform key ⟨s, contexts⟩).2.scopes := rfl
  rw [hscopes]
  exact congrArg (Gate.mk (op.perform key ⟨s, contexts⟩).2.scopes) hcontexts

end ScopeOperation

namespace ScopeProgram

/-- Runs the program. The first operation has the key, and every further one the next. -/
def run (contexts : ContextStack) (key : Nat) : ScopeProgram τ α → Action (ScopeStack τ) α
  | finish outcome => Action.ofTraced (Traced.ofExcept outcome)
  | call op next => do
    let outcome ← (op.onStack contexts key).attempt
    run contexts (key + 1) (next outcome)

/-- The operations that the program runs on a stack. -/
def operations (contexts : ContextStack) (key : Nat) :
    ScopeProgram τ α → ScopeStack τ → List (ScopeOperation τ)
  | finish _, _ => []
  | call op next, s =>
    op :: operations contexts (key + 1) (next (op.onStack contexts key s).1.result)
      (op.onStack contexts key s).2

def steps (contexts : ContextStack) (key : Nat) (p : ScopeProgram τ α) (s : ScopeStack τ) :
    List (ScopeStep τ) :=
  ScopeOperation.steps key ⟨s, contexts⟩ (p.operations contexts key s)

/-- What a program does to a stack is what its operations do one after the other. -/
theorem run_operations (contexts : ContextStack) (key : Nat) (p : ScopeProgram τ α)
    (s : ScopeStack τ) :
    ScopeOperation.run key ⟨s, contexts⟩ (p.operations contexts key s) =
      ⟨(p.run contexts key s).2, contexts⟩ := by
  induction p generalizing key s with
  | finish outcome => rfl
  | call op next ih =>
    have hattempt : ((op.onStack contexts key).attempt s).1.result =
        .ok (op.onStack contexts key s).1.result := rfl
    rw [operations, ScopeOperation.run, ScopeOperation.state_perform_eq_onStack, ih, run,
      Action.state_bind_of_ok hattempt]
    rfl

end ScopeProgram

/-! ### Leaving the block -/

namespace ScopeStack

omit [ClassHierarchy τ] in
/-- A block whose body leaves a frame on the stack takes the innermost one off and ends as its body
did. -/
theorem within_of_inner {key : Nat} {name : String} (body : Frame τ → Action (ScopeStack τ) α)
    {s s' : ScopeStack τ} {f : Frame τ} {rest : List (Frame τ)}
    (hstate : (body (.empty key name) (s.push (.empty key name))).2 = s')
    (hinner : s'.inner = f :: rest) :
    (within key name body s).1.result =
        (body (.empty key name) (s.push (.empty key name))).1.result ∧
      (within key name body s).2 = ⟨s'.root, rest⟩ := by
  obtain ⟨henter, hpush⟩ := enter_eq key name s
  obtain ⟨hexit, hrest⟩ := exit_of_inner hinner
  obtain ⟨hresult, hblock⟩ := Action.bracket_of_ok henter body exit
  rw [hpush, hstate] at hresult hblock
  rw [hexit] at hresult
  exact ⟨hresult, hblock.trans hrest⟩

/-- The stack after a body that leaves no frames but those it entered: the frame of the block is
still there, with what was bound in it, below the frames that the body left open. -/
theorem exists_run_inside (contexts : ContextStack) (key : Nat) (name : String)
    (p : ScopeProgram τ α) (s : ScopeStack τ)
    (h : ScopeStep.StaysAbove 0 (p.steps contexts (key + 1) (s.push (.empty key name)))) :
    ∃ above : List (Frame τ),
      above.length +
          (p.steps contexts (key + 1) (s.push (.empty key name))).countP ScopeStep.left =
        (p.steps contexts (key + 1) (s.push (.empty key name))).countP ScopeStep.entered ∧
      (p.run contexts (key + 1) (s.push (.empty key name))).2 =
        ⟨s.root, above ++ (Frame.empty key name).bindAll (ScopeStep.boundIn key
          (p.steps contexts (key + 1) (s.push (.empty key name)))) :: s.inner⟩ := by
  have hinside : (⟨s.push (.empty key name), contexts⟩ : Gate τ) =
      ScopeOperation.nested ([] ++ [.empty key name]) ⟨s, contexts⟩ := rfl
  have hnone : ∀ f ∈ ([] : List (Frame τ)), f.key ≠ (Frame.empty key name : Frame τ).key := by simp
  have hrun := ScopeProgram.run_operations contexts (key + 1) p (s.push (.empty key name))
  unfold ScopeProgram.steps at h ⊢
  rw [hinside] at h hrun ⊢
  obtain ⟨above, hcount, hnested⟩ :=
    ScopeOperation.exists_run_nested _ hnone (Nat.lt_succ_self key) h
  rw [hnested] at hrun
  refine ⟨above, ?_, ?_⟩
  · rw [hcount, List.length_nil, Nat.zero_add]
  · refine (congrArg Gate.scopes hrun).symm.trans ?_
    rw [ScopeOperation.nested, List.append_assoc]
    rfl

/-- **What a block leaves behind.** Let the body of a block at no point leave more frames than it
has entered. The block then ends as its body did. On the way out it takes off the innermost frame,
which is the frame of the block if the body left no frame open, and otherwise a frame of the body;
so the stack is as it was before the block exactly if the body left every frame it entered. -/
theorem within_of_staysAbove (contexts : ContextStack) (key : Nat) (name : String)
    (body : Frame τ → ScopeProgram τ α) (s : ScopeStack τ)
    (h : ScopeStep.StaysAbove 0 ((body (.empty key name)).steps contexts (key + 1)
      (s.push (.empty key name)))) :
    let inside := s.push (.empty key name)
    let steps := (body (.empty key name)).steps contexts (key + 1) inside
    let own := (Frame.empty key name).bindAll (ScopeStep.boundIn key steps)
    let block := within key name (fun f => (body f).run contexts (key + 1)) s
    block.1.result = ((body (.empty key name)).run contexts (key + 1) inside).1.result ∧
      (∃ above : List (Frame τ),
        above.length + steps.countP ScopeStep.left = steps.countP ScopeStep.entered ∧
        ((body (.empty key name)).run contexts (key + 1) inside).2 =
          ⟨s.root, above ++ own :: s.inner⟩ ∧
        block.2 = ⟨s.root, (above ++ own :: s.inner).tail⟩) ∧
      (block.2 = s ↔ steps.countP ScopeStep.left = steps.countP ScopeStep.entered) := by
  intro inside steps own block
  obtain ⟨above, hcount, hrun⟩ : ∃ above : List (Frame τ),
      above.length + steps.countP ScopeStep.left = steps.countP ScopeStep.entered ∧
      ((body (.empty key name)).run contexts (key + 1) inside).2 =
        ⟨s.root, above ++ own :: s.inner⟩ :=
    exists_run_inside contexts key name (body (.empty key name)) s h
  obtain ⟨f, rest, hinner⟩ : ∃ f rest, above ++ own :: s.inner = f :: rest :=
    List.exists_cons_of_ne_nil (by simp)
  obtain ⟨hresult, hblock⟩ := within_of_inner (fun f => (body f).run contexts (key + 1))
    hrun hinner
  have hstate : block.2 = ⟨s.root, (above ++ own :: s.inner).tail⟩ := by
    rw [hinner]
    exact hblock
  refine ⟨hresult, ⟨above, hcount, hrun, hstate⟩, ?_⟩
  rw [hstate]
  constructor
  · intro heq
    -- a frame that is still open makes the stack deeper
    have hlength := congrArg (fun s => s.inner.length) heq
    simp only [List.length_tail, List.length_append, List.length_cons] at hlength
    omega
  · intro heq
    have hnone : above = [] := List.eq_nil_of_length_eq_zero (by omega)
    rw [hnone]
    rfl

/-- A body that leaves the frame it entered and then fails: the stack is as it was. -/
theorem within_of_staysAbove_failing :
    let name := "rule"
    let body : Frame ElementType → ScopeProgram ElementType Unit := fun _ =>
      .call (.call (.enter "inner")) fun _ => .call (.call .exit) fun _ =>
        .call (.get (.text "nothing") .absent) fun outcome => .finish (outcome.map fun _ => ())
    let inside : ScopeStack ElementType := ScopeStack.empty.push (.empty 1 name)
    let block := within 1 name (fun f => (body f).run [] 2) .empty
    ScopeStep.StaysAbove 0 ((body (.empty 1 name)).steps [] 2 inside) ∧
      block.1.result = ((body (.empty 1 name)).run [] 2 inside).1.result ∧
      block.1.result = .error (.failure (.undefinedVariable (.text "nothing")
        ["rule", "global"])) ∧
      block.2 = .empty := by
  intro name body inside block
  have habove : ScopeStep.StaysAbove 0 ((body (.empty 1 name)).steps [] 2 inside) := by
    decide +kernel
  obtain ⟨hresult, -, hstate⟩ := within_of_staysAbove [] 1 name body .empty habove
  exact ⟨habove, hresult, rfl, hstate.mpr (by decide +kernel)⟩

/-- A body that fails in a frame of its own: leaving the block takes off that frame, and the frame
of the block stays. -/
theorem within_keeps_own_frame :
    let name := "rule"
    let body : Frame ElementType → ScopeProgram ElementType Unit := fun _ =>
      .call (.call (.enter "inner")) fun _ =>
        .call (.get (.text "nothing") .absent) fun outcome => .finish (outcome.map fun _ => ())
    let inside : ScopeStack ElementType := ScopeStack.empty.push (.empty 1 name)
    let block := within 1 name (fun f => (body f).run [] 2) .empty
    ScopeStep.StaysAbove 0 ((body (.empty 1 name)).steps [] 2 inside) ∧
      block.1.result = .error (.failure (.undefinedVariable (.text "nothing")
        ["inner", "rule", "global"])) ∧
      (ScopeStack.empty : ScopeStack ElementType).depth = 1 ∧ block.2.depth = 2 ∧
      block.2.current.name = name := by
  intro name body inside block
  have habove : ScopeStep.StaysAbove 0 ((body (.empty 1 name)).steps [] 2 inside) := by
    decide +kernel
  exact ⟨habove, rfl, rfl, rfl, rfl⟩

end ScopeStack

/-! ### Blocks of a session -/

namespace Session

omit [ClassHierarchy τ]

theorem exit_eq (s : Session τ) :
    (exit s).1.result = (ScopeStack.exit s.gate.scopes).1.result ∧
      (exit s).2.gate = { s.gate with scopes := (ScopeStack.exit s.gate.scopes).2 } := by
  have hstate : (onScopes ScopeStack.exit s).2.gate =
      { s.gate with scopes := (ScopeStack.exit s.gate.scopes).2 } := rfl
  cases h : (ScopeStack.exit s.gate.scopes).1.result with
  | ok f =>
    have hexit : (onScopes ScopeStack.exit s).1.result = .ok f := h
    rw [exit, Action.bind_of_ok hexit]
    exact ⟨rfl, hstate⟩
  | error e =>
    have hexit : (onScopes ScopeStack.exit s).1.result = .error e := h
    rw [exit, Action.bind_of_error hexit]
    exact ⟨rfl, hstate⟩

theorem map_snd_bind_map (left : Except Fault (Frame τ)) (outcome : Except Fault α) (key : Nat) :
    (left.bind fun _ => outcome.map fun a => (key, a)).map Prod.snd =
      left.bind fun _ => outcome := by
  cases left with
  | ok f => cases outcome <;> rfl
  | error e => rfl

/-- A block of a session does to the frames what the block on the stack does. -/
theorem within_onScopes (name : String) (body : Action (ScopeStack τ) α) (s : Session τ) :
    (within name (onScopes body) s).1.result.map Prod.snd =
        (ScopeStack.within s.nextKey name (fun _ => body) s.gate.scopes).1.result ∧
      (within name (onScopes body) s).2.gate =
        { s.gate with
          scopes := (ScopeStack.within s.nextKey name (fun _ => body) s.gate.scopes).2 } := by
  let keyed : Frame τ → Action (Session τ) (Nat × α) := fun frame => do
    let a ← onScopes body
    pure (frame.key, a)
  have hwithin : (within name (onScopes body) s).1.result.map Prod.snd =
        (Action.bracket (enter name) keyed exit s).1.result.map Prod.snd ∧
      (within name (onScopes body) s).2 = (Action.bracket (enter name) keyed exit s).2 := by
    unfold within
    cases h : (Action.bracket (enter name) keyed exit s).1.result with
    | ok p =>
      rw [Action.bind_of_ok h]
      exact ⟨rfl, rfl⟩
    | error e =>
      rw [Action.bind_of_error h]
      exact ⟨rfl, rfl⟩
  have henter : (enter name s).1.result = .ok (.empty s.nextKey name) := rfl
  obtain ⟨hresult, hstate⟩ := Action.bracket_of_ok henter keyed exit
  obtain ⟨hstack, hscopes⟩ := Action.bracket_of_ok
    (ScopeStack.enter_eq s.nextKey name s.gate.scopes).1 (fun _ => body) ScopeStack.exit
  rw [(exit_eq _).1, Action.result_map, Action.state_map] at hresult
  refine ⟨?_, ?_⟩
  · rw [hwithin.1, hresult]
    unfold ScopeStack.within
    rw [hstack]
    exact map_snd_bind_map _ _ s.nextKey
  · rw [hwithin.2, hstate, (exit_eq _).2, Action.state_map]
    unfold ScopeStack.within
    rw [hscopes]
    rfl

end Session

end FuzzyAlgebra

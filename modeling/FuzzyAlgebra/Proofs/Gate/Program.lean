import FuzzyAlgebra.Proofs.Gate
import FuzzyAlgebra.Proofs.Scope.Failure

/-!
# Programs

A program that is cut in two runs like its two parts, one after the other, as long as nothing fails.
What fails first ends it: nothing that was done before is taken back, and nothing after it is looked
at. Looking up and testing leave the state alone, and an assignment changes what one name is bound
to in the innermost frame.
-/

namespace FuzzyAlgebra

namespace ScopeStack

variable {τ : Type}

/-- The second stack is the first one with a binding in the innermost frame, where all other
bindings stay, and in their order. -/
structure Rebinds (b : Binding τ) (s t : ScopeStack τ) : Prop where
  outer_eq : t.outer = s.outer
  key_eq : t.current.key = s.current.key
  name_eq : t.current.name = s.current.name
  bound : t.current.get? b.name = some b
  others_eq : t.current.bindings.filter (fun c => c.name ≠ b.name) =
    s.current.bindings.filter fun c => c.name ≠ b.name

theorem rebinds_mapCurrent (b : Binding τ) (s : ScopeStack τ) :
    Rebinds b s (s.mapCurrent fun f => f.bind b) := by
  refine ⟨outer_mapCurrent _ s, ?_, ?_, ?_, ?_⟩
  · rw [current_mapCurrent, Frame.key_bind]
  · rw [current_mapCurrent, Frame.name_bind]
  · rw [current_mapCurrent, Frame.get?_bind, if_pos rfl]
  · rw [current_mapCurrent, Frame.filter_name_ne_bind]

end ScopeStack

namespace Gate

variable {τ : Type} [ClassHierarchy τ] {g : Gate τ} {p q : List (Instruction τ)} {i : Instruction τ}
  {xs : List (Evaluation τ)} {x : Evaluation τ} {e : Fault}

/-! ### One instruction -/

theorem result_evaluate (i : Instruction τ) (g : Gate τ) :
    (evaluate i g).1.result = (perform i g.scopes).1.result.map fun answer => ⟨i, answer⟩ := by
  rw [evaluate]
  exact Action.result_map _ _ _

theorem instruction_of_evaluate (h : (evaluate i g).1.result = .ok x) : x.instruction = i := by
  rw [result_evaluate] at h
  cases hanswer : (perform i g.scopes).1.result with
  | error e =>
    rw [hanswer] at h
    cases h
  | ok answer =>
    rw [hanswer] at h
    cases h
    rfl

theorem evaluate_assign_cases (name : Value) (set : Operand τ) (declared : TagArgument τ)
    (g : Gate τ) :
    (∃ b, name = .text b.name ∧ set = .set b.value ∧
      (evaluate (.assign name set declared) g).1.result =
        .ok ⟨.assign name set declared, .nothing⟩ ∧
      ScopeStack.Rebinds b g.scopes (evaluate (.assign name set declared) g).2.scopes ∧
      (evaluate (.assign name set declared) g).2.contexts = g.contexts) ∨
    ∃ e, (evaluate (.assign name set declared) g).1.result = .error e ∧
      (evaluate (.assign name set declared) g).2 = g := by
  have hperform : (perform (.assign name set declared) g.scopes).1.result =
      (ScopeStack.assign name set declared g.scopes).1.result.map fun _ => .nothing :=
    Action.result_map _ _ _
  rw [state_evaluate, state_perform_assign, result_evaluate, hperform]
  cases hcheck : (ScopeStack.checkBinding name set declared).result with
  | ok b =>
    obtain ⟨n, s, hname, -, hset, -, -, rfl⟩ := ScopeStack.checkBinding_eq_ok_iff.mp hcheck
    obtain ⟨hresult, hstate⟩ := ScopeStack.assign_of_ok hcheck g.scopes
    rw [hresult, hstate]
    exact .inl ⟨_, hname, hset, rfl, ScopeStack.rebinds_mapCurrent _ g.scopes, rfl⟩
  | error e =>
    obtain ⟨hresult, hstate⟩ := ScopeStack.assign_of_error hcheck g.scopes
    rw [hresult, hstate]
    exact .inr ⟨e, rfl, rfl⟩

/-! ### Programs in parts -/

theorem run_append (p q : List (Instruction τ)) :
    run (p ++ q) = run p >>= fun xs => run q >>= fun ys => pure (xs ++ ys) := by
  induction p with
  | nil => simp [run]
  | cons i rest ih => simp [run, ih]

theorem run_cons_eq_ok_iff {rest : List (Instruction τ)} :
    (run (i :: rest) g).1.result = .ok xs ↔
      ∃ x others, (evaluate i g).1.result = .ok x ∧
        (run rest (evaluate i g).2).1.result = .ok others ∧ xs = x :: others := by
  rw [run, Action.result_bind_eq_ok_iff]
  constructor
  · rintro ⟨x, hx, h⟩
    obtain ⟨others, hothers, hxs⟩ := Action.result_bind_eq_ok_iff.mp h
    cases hxs
    exact ⟨x, others, hx, hothers, rfl⟩
  · rintro ⟨x, others, hx, hothers, rfl⟩
    exact ⟨x, hx, Action.result_bind_eq_ok_iff.mpr ⟨others, hothers, rfl⟩⟩

theorem state_run_cons_of_ok (h : (evaluate i g).1.result = .ok x) (rest : List (Instruction τ)) :
    (run (i :: rest) g).2 = (run rest (evaluate i g).2).2 := by
  rw [run, Action.state_bind_of_ok h, Action.state_map]

/-- The state of a failed instruction is the one before it, since it is atomic. -/
theorem run_cons_of_error (h : (evaluate i g).1.result = .error e) (rest : List (Instruction τ)) :
    run (i :: rest) g = (⟨.error e, (evaluate i g).1.events⟩, g) := by
  rw [run, Action.bind_of_error h, atomic_evaluate i g e h]

theorem instructions_of_run (h : (run p g).1.result = .ok xs) :
    xs.map Evaluation.instruction = p := by
  induction p generalizing g xs with
  | nil =>
    cases h
    rfl
  | cons i rest ih =>
    obtain ⟨x, others, hx, hothers, rfl⟩ := run_cons_eq_ok_iff.mp h
    rw [List.map_cons, instruction_of_evaluate hx, ih hothers]

theorem run_of_first_error (hp : (run p g).1.result = .ok xs)
    (hi : (evaluate i (run p g).2).1.result = .error e) (rest : List (Instruction τ)) :
    run (p ++ i :: rest) g =
      (⟨.error e, (run p g).1.events ++ (evaluate i (run p g).2).1.events⟩, (run p g).2) := by
  have hrest := run_cons_of_error hi rest
  have herror : (run (i :: rest) (run p g).2).1.result = .error e := by rw [hrest]
  rw [run_append, Action.bind_of_ok hp, Action.bind_of_error herror, hrest]

/-- A program that does not succeed has a first instruction that fails. -/
theorem exists_first_error (p : List (Instruction τ)) (g : Gate τ) :
    (∃ xs, (run p g).1.result = .ok xs) ∨
      ∃ before i rest xs e, p = before ++ i :: rest ∧ (run before g).1.result = .ok xs ∧
        (evaluate i (run before g).2).1.result = .error e := by
  induction p generalizing g with
  | nil => exact .inl ⟨[], rfl⟩
  | cons i rest ih =>
    cases hfirst : (evaluate i g).1.result with
    | error e => exact .inr ⟨[], i, rest, [], e, rfl, rfl, hfirst⟩
    | ok x =>
      rcases ih (evaluate i g).2 with ⟨xs, hxs⟩ | ⟨before, j, after, xs, e, rfl, hbefore, hj⟩
      · exact .inl ⟨x :: xs, run_cons_eq_ok_iff.mpr ⟨x, xs, hfirst, hxs, rfl⟩⟩
      · refine .inr ⟨i :: before, j, after, x :: xs, e, rfl, ?_, ?_⟩
        · exact run_cons_eq_ok_iff.mpr ⟨x, xs, hfirst, hbefore, rfl⟩
        · rw [state_run_cons_of_ok hfirst before]
          exact hj

/-- **Programs compose.** Two programs in a row do what the second one does where the first one has
succeeded, with one result for each instruction. A program that does not succeed fails as its first
failing instruction does: the state is the one before that instruction, and what would come after it
is left without a trace. Looking up and testing never change the state, and an assignment that
succeeds changes what its own name is bound to in the innermost frame and nothing else. -/
theorem run_composition (g : Gate τ) :
    ((∀ p q : List (Instruction τ),
      run (p ++ q) g = (run p >>= fun xs => run q >>= fun ys => pure (xs ++ ys)) g) ∧
      ∀ (p : List (Instruction τ)) (xs : List (Evaluation τ)),
        (run p g).1.result = .ok xs → xs.map Evaluation.instruction = p) ∧
    ((∀ (before : List (Instruction τ)) (i : Instruction τ) (xs : List (Evaluation τ)) (e : Fault),
      (run before g).1.result = .ok xs → (evaluate i (run before g).2).1.result = .error e →
      ∀ rest, run (before ++ i :: rest) g =
        (⟨.error e, (run before g).1.events ++ (evaluate i (run before g).2).1.events⟩,
          (run before g).2)) ∧
      ∀ p : List (Instruction τ), (∃ xs, (run p g).1.result = .ok xs) ∨
        ∃ before i rest xs e, p = before ++ i :: rest ∧ (run before g).1.result = .ok xs ∧
          (evaluate i (run before g).2).1.result = .error e) ∧
    (∀ name expected, (evaluate (.get name expected) g).2 = g) ∧
    (∀ set element, (evaluate (.test set element) g).2 = g) ∧
    ∀ name set declared,
      (∃ b, name = .text b.name ∧ set = .set b.value ∧
        (evaluate (.assign name set declared) g).1.result =
          .ok ⟨.assign name set declared, .nothing⟩ ∧
        ScopeStack.Rebinds b g.scopes (evaluate (.assign name set declared) g).2.scopes ∧
        (evaluate (.assign name set declared) g).2.contexts = g.contexts) ∨
      ∃ e, (evaluate (.assign name set declared) g).1.result = .error e ∧
        (evaluate (.assign name set declared) g).2 = g := by
  refine ⟨⟨?_, ?_⟩, ⟨?_, ?_⟩, ?_, ?_, ?_⟩
  · intro p q
    rw [run_append]
  · intro p xs h
    exact instructions_of_run h
  · intro before i xs e hbefore hi rest
    exact run_of_first_error hbefore hi rest
  · intro p
    exact exists_first_error p g
  · intro name expected
    rw [state_evaluate, state_perform_get]
  · intro set element
    rw [state_evaluate, state_perform_test]
  · intro name set declared
    exact evaluate_assign_cases name set declared g

/-- A dog is bound and looked up as an animal, then a name is looked up that nothing is bound to. -/
theorem run_composition_unbound :
    let s : FuzzySet ElementType := .primitive ⟨1, .absent, some .dog⟩ .identity
    let before : List (Instruction ElementType) :=
      [.assign (.text "tame") (.set s) .absent, .get (.text "tame") (.tag .animal)]
    let i : Instruction ElementType := .get (.text "wild") .absent
    ∃ xs e, (run before .empty).1.result = .ok xs ∧
      (evaluate i (run before .empty).2).1.result = .error e ∧
      xs.map Evaluation.instruction = before ∧
      ∀ rest, run (before ++ i :: rest) .empty =
        (⟨.error e, (run before .empty).1.events ++ (evaluate i (run before .empty).2).1.events⟩,
          (run before .empty).2) := by
  intro s before i
  obtain ⟨xs, hxs⟩ : ∃ xs, (run before .empty).1.result = .ok xs := ⟨_, rfl⟩
  obtain ⟨e, he⟩ : ∃ e, (evaluate i (run before .empty).2).1.result = .error e := ⟨_, rfl⟩
  obtain ⟨⟨-, hinstructions⟩, ⟨hfirst, -⟩, -⟩ := run_composition (τ := ElementType) .empty
  exact ⟨xs, e, hxs, he, hinstructions before xs hxs, hfirst before i xs e hxs he⟩

end Gate

end FuzzyAlgebra

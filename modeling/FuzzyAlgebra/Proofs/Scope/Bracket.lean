import FuzzyAlgebra.Proofs.ElementType
import FuzzyAlgebra.Proofs.Scope.Operation
import Mathlib.Data.List.Infix

/-!
# Frames as brackets

A run that leaves as many frames as it enters, and at no point more, works on frames of its own. It
binds in the frame it started in only while that frame is innermost, and the frames below it stay as
they are. So leaving after such a run takes off the frame that was entered before it, and nothing
else has changed.
-/

namespace FuzzyAlgebra

/-- A step of a run: the state before it, the key for a frame that it enters, and what it runs. -/
structure ScopeStep (τ : Type) where
  before : Gate τ
  key : Nat
  operation : ScopeOperation τ

namespace ScopeStep

variable {τ : Type} [ClassHierarchy τ]

def succeeded (step : ScopeStep τ) : Bool :=
  match (step.operation.perform step.key step.before).1.result with
  | .ok _ => true
  | .error _ => false

def entered (step : ScopeStep τ) : Bool :=
  match step.operation with
  | .call (.enter _) => step.succeeded
  | _ => false

def left (step : ScopeStep τ) : Bool :=
  match step.operation with
  | .call .exit => step.succeeded
  | _ => false

def assigned (step : ScopeStep τ) : List (Assignment τ) :=
  (step.operation.made step.key step.before).map fun b => ⟨step.before.scopes.current.key, b⟩

theorem entered_of_ne {step : ScopeStep τ} (h : ∀ name, step.operation ≠ .call (.enter name)) :
    step.entered = false := by
  rw [entered]
  split
  · rename_i name heq
    exact absurd heq (h name)
  · rfl

theorem left_of_ne {step : ScopeStep τ} (h : step.operation ≠ .call .exit) :
    step.left = false := by
  rw [left]
  split
  · rename_i heq
    exact absurd heq h
  · rfl

/-- What the steps bound while the frame of the key was innermost. -/
def boundIn (key : Nat) (steps : List (ScopeStep τ)) : List (Binding τ) :=
  ((steps.flatMap assigned).filter fun a => a.frame = key).map Assignment.binding

/-- No beginning of the steps leaves more frames than it enters, and all together leave as many. -/
structure Balanced (steps : List (ScopeStep τ)) : Prop where
  le_entered : ∀ p, p <+: steps → p.countP left ≤ p.countP entered
  eq_entered : steps.countP left = steps.countP entered

instance (steps : List (ScopeStep τ)) : Decidable (Balanced steps) :=
  decidable_of_iff
    ((∀ p ∈ steps.inits, p.countP left ≤ p.countP entered) ∧
      steps.countP left = steps.countP entered)
    ⟨fun h => ⟨fun p hp => h.1 p ((List.mem_inits p steps).mpr hp), h.2⟩,
      fun h => ⟨fun p hp => h.1 p ((List.mem_inits p steps).mp hp), h.2⟩⟩

/-- The steps leave the frames that they enter and so many more. -/
structure Closes (count : Nat) (steps : List (ScopeStep τ)) : Prop where
  le_entered : ∀ p, p <+: steps → p.countP left ≤ count + p.countP entered
  eq_entered : steps.countP left = count + steps.countP entered

theorem Balanced.closes {steps : List (ScopeStep τ)} (h : Balanced steps) : Closes 0 steps where
  le_entered := by
    intro p hp
    rw [Nat.zero_add]
    exact h.le_entered p hp
  eq_entered := by
    rw [Nat.zero_add]
    exact h.eq_entered

/-- No beginning of the steps leaves more frames than it enters and so many more. -/
def StaysAbove (count : Nat) (steps : List (ScopeStep τ)) : Prop :=
  ∀ p, p <+: steps → p.countP left ≤ count + p.countP entered

instance (count : Nat) (steps : List (ScopeStep τ)) : Decidable (StaysAbove count steps) :=
  decidable_of_iff (∀ p ∈ steps.inits, p.countP left ≤ count + p.countP entered)
    ⟨fun h p hp => h p ((List.mem_inits p steps).mpr hp),
      fun h p hp => h p ((List.mem_inits p steps).mp hp)⟩

section StaysAbove

variable {count : Nat} {step : ScopeStep τ} {rest : List (ScopeStep τ)}

theorem StaysAbove.left_le (h : StaysAbove count (step :: rest)) :
    (if step.left = true then 1 else 0) ≤ count + if step.entered = true then 1 else 0 := by
  have hle := h [step] (List.cons_prefix_cons.mpr ⟨rfl, List.nil_prefix⟩)
  rwa [List.countP_singleton, List.countP_singleton] at hle

theorem StaysAbove.tail (h : StaysAbove count (step :: rest)) {count' : Nat}
    (hcount : count' + (if step.left = true then 1 else 0) =
      count + if step.entered = true then 1 else 0) : StaysAbove count' rest := by
  intro p hp
  have hle := h (step :: p) (List.cons_prefix_cons.mpr ⟨rfl, hp⟩)
  rw [List.countP_cons, List.countP_cons] at hle
  omega

end StaysAbove

theorem boundIn_cons (key : Nat) (step : ScopeStep τ) (steps : List (ScopeStep τ)) :
    boundIn key (step :: steps) =
      (if step.before.scopes.current.key = key then step.operation.made step.key step.before else [])
        ++ boundIn key steps := by
  rw [boundIn, List.flatMap_cons, List.filter_append, List.map_append, assigned]
  congr 1
  by_cases hkey : step.before.scopes.current.key = key
  · simp [hkey, List.filter_map, Function.comp_def]
  · simp [hkey]

end ScopeStep

namespace ScopeOperation

variable {τ : Type} [ClassHierarchy τ]

/-- The steps of a run of operations, which goes on after those that fail. The first step has the
key, and every further one the next. -/
def steps (key : Nat) (g : Gate τ) : List (ScopeOperation τ) → List (ScopeStep τ)
  | [] => []
  | op :: rest => ⟨g, key, op⟩ :: steps (key + 1) (op.perform key g).2 rest

def run (key : Nat) (g : Gate τ) : List (ScopeOperation τ) → Gate τ
  | [] => g
  | op :: rest => run (key + 1) (op.perform key g).2 rest

def inside (key : Nat) (name : String) (g : Gate τ) : Gate τ :=
  ((call (.enter name)).perform key g).2

/-- The state with frames put on top of it, innermost first. -/
def nested (above : List (Frame τ)) (g : Gate τ) : Gate τ :=
  { g with scopes := ⟨g.scopes.root, above ++ g.scopes.inner⟩ }

section Nested

variable {g : Gate τ} {key : Nat} {base f : Frame τ} {above : List (Frame τ)}

omit [ClassHierarchy τ] in
theorem current_nested : (nested (f :: above) g).scopes.current = f := rfl

omit [ClassHierarchy τ] in
/-- A frame is bound in only if no frame stands above it. -/
theorem exists_bound_nested (bs : List (Binding τ)) (habove : ∀ f ∈ above, f.key ≠ base.key) :
    ∃ above', above'.length = above.length ∧ (∀ f ∈ above', f.key ≠ base.key) ∧
      bound bs (nested (above ++ [base]) g) = nested (above' ++ [base.bindAll
        (if (nested (above ++ [base]) g).scopes.current.key = base.key then bs else [])]) g := by
  cases above with
  | nil =>
    refine ⟨[], rfl, habove, ?_⟩
    rw [List.nil_append, current_nested, if_pos rfl]
    rfl
  | cons f above =>
    have hf : f.key ≠ base.key := habove f List.mem_cons_self
    refine ⟨f.bindAll bs :: above, rfl, ?_, ?_⟩
    · intro f' hf'
      rcases List.mem_cons.mp hf' with rfl | hf'
      · rw [Frame.key_bindAll]
        exact hf
      · exact habove f' (List.mem_cons_of_mem _ hf')
    · rw [List.cons_append, current_nested, if_neg hf]
      rfl

/-- One step above a frame: it binds in that frame what it bound if the frame was innermost, and it
does not take it off, as it leaves one of the frames above if it leaves one at all. -/
theorem step_nested (op : ScopeOperation τ) (habove : ∀ f ∈ above, f.key ≠ base.key)
    (hbase : base.key < key) {step : ScopeStep τ}
    (hstep : step = ⟨nested (above ++ [base]) g, key, op⟩)
    (hle : (if step.left = true then 1 else 0) ≤
      above.length + if step.entered = true then 1 else 0) :
    ∃ above', (∀ f ∈ above', f.key ≠ base.key) ∧
      above'.length + (if step.left = true then 1 else 0) =
        above.length + (if step.entered = true then 1 else 0) ∧
      (op.perform key (nested (above ++ [base]) g)).2 = nested (above' ++ [base.bindAll
        (if (nested (above ++ [base]) g).scopes.current.key = base.key
          then op.made key (nested (above ++ [base]) g) else [])]) g := by
  subst hstep
  by_cases henter : ∃ name, op = call (.enter name)
  · obtain ⟨name, rfl⟩ := henter
    have hmade : (call (.enter name)).made key (nested (above ++ [base]) g) = [] := rfl
    refine ⟨.empty key name :: above, ?_, rfl, ?_⟩
    · intro f hf
      rcases List.mem_cons.mp hf with rfl | hf
      · exact Nat.ne_of_gt hbase
      · exact habove f hf
    · rw [hmade, ite_self, (perform_enter key name _).2]
      rfl
  · have henter : ∀ name, op ≠ call (.enter name) := fun name hop => henter ⟨name, hop⟩
    by_cases hexit : op = call .exit
    · subst hexit
      have hmade : (call .exit).made key (nested (above ++ [base]) g) = [] := rfl
      rw [hmade, ite_self, Frame.bindAll_nil]
      cases above with
      | nil =>
        -- nothing stands above the frame, so there is none that could be left
        have hle : 1 ≤ 0 := hle
        omega
      | cons f above =>
        refine ⟨above, fun f hf => habove f (List.mem_cons_of_mem _ hf), rfl, ?_⟩
        exact (perform_exit_of_inner key rfl).2
    · have hentered : ScopeStep.entered ⟨nested (above ++ [base]) g, key, op⟩ = false :=
        ScopeStep.entered_of_ne henter
      have hleft : ScopeStep.left ⟨nested (above ++ [base]) g, key, op⟩ = false :=
        ScopeStep.left_of_ne hexit
      obtain ⟨above', hlength, habove', hbound⟩ := exists_bound_nested
        (op.made key (nested (above ++ [base]) g)) habove
      refine ⟨above', habove', by rw [hentered, hleft, hlength], ?_⟩
      rw [state_perform_of_ne henter hexit, hbound]

/-- A run that leaves no more frames than stand above a frame: as many are left above it as the
run's entering and leaving says, and it holds in addition what was bound while it was innermost. -/
theorem exists_run_nested (ops : List (ScopeOperation τ)) (habove : ∀ f ∈ above, f.key ≠ base.key)
    (hbase : base.key < key)
    (h : ScopeStep.StaysAbove above.length (steps key (nested (above ++ [base]) g) ops)) :
    ∃ above',
      above'.length + (steps key (nested (above ++ [base]) g) ops).countP ScopeStep.left =
        above.length + (steps key (nested (above ++ [base]) g) ops).countP ScopeStep.entered ∧
      run key (nested (above ++ [base]) g) ops = nested (above' ++ [base.bindAll
        (ScopeStep.boundIn base.key (steps key (nested (above ++ [base]) g) ops))]) g := by
  induction ops generalizing above base key with
  | nil => exact ⟨above, rfl, rfl⟩
  | cons op rest ih =>
    rw [steps] at h ⊢
    obtain ⟨mid, hmid, hlength, hstate⟩ := step_nested op habove hbase rfl h.left_le
    have hrest := h.tail hlength
    rw [run, ScopeStep.boundIn_cons, Frame.bindAll_append, List.countP_cons, List.countP_cons]
    rw [hstate] at hrest ⊢
    obtain ⟨above', hcount, hrun⟩ :=
      ih (by simpa using hmid) (by simpa using Nat.lt_succ_of_lt hbase) hrest
    refine ⟨above', by omega, ?_⟩
    rw [hrun, Frame.key_bindAll]

theorem run_nested (ops : List (ScopeOperation τ)) (habove : ∀ f ∈ above, f.key ≠ base.key)
    (hbase : base.key < key)
    (h : ScopeStep.Closes above.length (steps key (nested (above ++ [base]) g) ops)) :
    run key (nested (above ++ [base]) g) ops =
      nested [base.bindAll
        (ScopeStep.boundIn base.key (steps key (nested (above ++ [base]) g) ops))] g := by
  obtain ⟨above', hcount, hrun⟩ := exists_run_nested ops habove hbase h.le_entered
  have heq := h.eq_entered
  have hnone : above' = [] := List.eq_nil_of_length_eq_zero (by omega)
  rw [hrun, hnone]
  rfl

end Nested

/-- **Frames are brackets.** Let a run follow on entering a frame, and leave as many frames as it
enters and at no point more. Leaving then takes off the very frame that was entered. It holds the
names that were bound while it was innermost, in the order in which they were bound first, each with
its last binding; and all else is as it was before the frame was entered. -/
theorem exit_after_balanced (g : Gate τ) (key last : Nat) (name : String)
    (ops : List (ScopeOperation τ))
    (h : ScopeStep.Balanced (steps (key + 1) (inside key name g) ops)) :
    ((call (.enter name)).perform key g).1.result = .ok (.frame (some (.empty key name))) ∧
    ∃ closed : Frame τ,
      ((call .exit).perform last (run (key + 1) (inside key name g) ops)).1.result =
        .ok (.frame (some closed)) ∧
      ((call .exit).perform last (run (key + 1) (inside key name g) ops)).2 = g ∧
      closed.key = key ∧ closed.name = name ∧
      closed.names = ((ScopeStep.boundIn key
        (steps (key + 1) (inside key name g) ops)).map Binding.name).eraseDups ∧
      ∀ n, closed.get? n = (ScopeStep.boundIn key
        (steps (key + 1) (inside key name g) ops)).reverse.find? fun b => b.name = n := by
  have hinside : inside key name g = nested ([] ++ [.empty key name]) g :=
    (perform_enter key name g).2
  refine ⟨(perform_enter key name g).1, ?_⟩
  rw [hinside] at h ⊢
  have hnone : ∀ f ∈ ([] : List (Frame τ)), f.key ≠ (Frame.empty key name : Frame τ).key := by simp
  have hrun := run_nested ops hnone (Nat.lt_succ_self key) h.closes
  rw [hrun]
  obtain ⟨hresult, hstate⟩ := perform_exit_of_inner last
    (g := nested [(Frame.empty key name).bindAll _] g) rfl
  refine ⟨_, hresult, hstate, Frame.key_bindAll _ _, Frame.name_bindAll _ _,
    Frame.names_bindAll_empty key name _, ?_⟩
  intro n
  rw [Frame.get?_bindAll]
  exact Option.or_none

/-- A run with a frame inside, which fails twice: an unknown name, and an empty one. -/
theorem exit_after_balanced_with_failures :
    let warm : FuzzySet ElementType := .primitive ⟨1, .absent, none⟩ .identity
    let hot : FuzzySet ElementType := .primitive ⟨2, .absent, none⟩ .identity
    let g : Gate ElementType := ⟨⟨(Frame.empty 0 ScopeStack.rootName).bind ⟨"t", warm, none⟩, []⟩, []⟩
    let ops := [call (.assign (.text "u") (.set warm) .absent), call (.enter "inner"),
      call (.assign (.text "t") (.set warm) .absent), lookup (.text "v"), call .exit,
      evaluate (.assign (.text "t") (.set hot) .absent),
      call (.assign (.text "") (.set hot) .absent),
      call (.assign (.text "u") (.set hot) .absent)]
    ScopeStep.Balanced (steps 2 (inside 1 "rule" g) ops) ∧
    ∃ closed : Frame ElementType,
      ((call .exit).perform 10 (run 2 (inside 1 "rule" g) ops)).1.result =
        .ok (.frame (some closed)) ∧
      ((call .exit).perform 10 (run 2 (inside 1 "rule" g) ops)).2 = g ∧
      closed.key = 1 ∧ closed.names = ["u", "t"] ∧ closed.get? "u" = some ⟨"u", hot, none⟩ := by
  intro warm hot g ops
  have hbalanced : ScopeStep.Balanced (steps 2 (inside 1 "rule" g) ops) := by
    decide +kernel
  obtain ⟨-, closed, hresult, hstate, hkey, -, hnames, hget⟩ :=
    exit_after_balanced g 1 10 "rule" ops hbalanced
  refine ⟨hbalanced, closed, hresult, hstate, hkey, ?_, ?_⟩
  · rw [hnames]
    decide +kernel
  · rw [hget]
    rfl

end ScopeOperation

end FuzzyAlgebra

import FuzzyAlgebra.Proofs.Atomic
import FuzzyAlgebra.Proofs.ElementType
import FuzzyAlgebra.Proofs.Logging.Alarm
import FuzzyAlgebra.Proofs.Scope.Operation

/-!
# Failed operations are invisible

Every check of an operation comes before its first change. So an operation that fails leaves the
state as it was, and a run can do without the operations that fail in it. Populating is the
exception: it changes the frames name by name. What tells of a failure is a log record, exactly one
for each error of an operation on the stack.
-/

namespace FuzzyAlgebra

/-! ### On the stack -/

namespace ScopeStack

variable {τ : Type}

theorem atomic_exit : (exit : Action (ScopeStack τ) (Frame τ)).Atomic := by
  intro s e he
  cases hinner : s.inner with
  | nil => exact (exit_of_root hinner).2
  | cons f rest =>
    rw [(exit_of_inner hinner).1] at he
    cases he

theorem reports_enter (key : Nat) (name : String) :
    (enter key name : Action (ScopeStack τ) (Frame τ)).Reports := by
  refine (Action.reports_modify _).bind fun _ => Action.reports_read.bind fun s => ?_
  exact (Action.reports_ofTraced (Traced.reports_log_debug _ _)).bind fun _ =>
    Action.reports_pure _

theorem reports_exit : (exit : Action (ScopeStack τ) (Frame τ)).Reports := by
  refine Action.reports_read.bind fun s => ?_
  cases s.inner with
  | nil => exact Action.reports_ofTraced (Traced.reports_failWith_error _ _ _)
  | cons f rest =>
    refine (Action.reports_write _).bind fun _ => ?_
    exact (Action.reports_ofTraced (Traced.reports_log_debug _ _)).bind fun _ =>
      Action.reports_pure _

theorem reports_lookup (s : ScopeStack τ) (name : Value) : (s.lookup name).Reports := by
  refine (Traced.reports_ofMishap _).bind fun text => ?_
  cases text.bind s.find? with
  | some b => exact Traced.reports_pure b
  | none => exact Traced.reports_failQuoting (Int.le_refl _) _ _ _ _

theorem reports_validateTag (t : TagArgument τ) (role : String) : (validateTag t role).Reports := by
  cases t with
  | absent => exact Traced.reports_pure _
  | tag u => exact Traced.reports_pure _
  | other v => exact Traced.reports_failQuoting (by decide) v _ _ _

theorem reports_checkName (name : Value) : (checkBinding.checkName name).Reports := by
  cases name with
  | text n =>
    rw [checkBinding.checkName]
    split
    · exact Traced.reports_failQuoting (by decide) _ _ _ _
    · exact Traced.reports_pure n
  | _ => exact Traced.reports_failQuoting (by decide) _ _ _ _

theorem reports_checkSet (name : String) (value : Operand τ) :
    (checkBinding.checkSet name value).Reports := by
  cases value with
  | set s => exact Traced.reports_pure s
  | value v => exact Traced.reports_failWith_error _ _ _

variable [ClassHierarchy τ]

theorem reports_get (s : ScopeStack τ) (name : Value) (expected : TagArgument τ) :
    (s.get name expected).Reports := by
  refine (reports_lookup s name).bind fun b => ?_
  have haccepts : (b.accepts expected).Reports :=
    (reports_validateTag expected _).bind fun _ => Traced.reports_pure _
  refine haccepts.bind fun fits => ?_
  cases fits with
  | true => exact Traced.reports_pure _
  | false => exact Traced.reports_failQuoting (by decide) _ _ _ _

theorem reports_checkBinding (name : Value) (value : Operand τ) (declared : TagArgument τ) :
    (checkBinding name value declared).Reports := by
  refine (reports_checkName name).bind fun n => (reports_checkSet n value).bind fun set => ?_
  refine (reports_validateTag declared _).bind fun tag => ?_
  split
  · exact Traced.reports_pure _
  · exact Traced.reports_failWith_error _ _ _

theorem reports_assign (name : Value) (value : Operand τ) (declared : TagArgument τ) :
    (assign name value declared).Reports := by
  refine (Action.reports_ofTraced (reports_checkBinding name value declared)).bind fun b => ?_
  refine (Action.reports_modify _).bind fun _ => Action.reports_read.bind fun s => ?_
  exact Action.reports_ofTraced (Traced.reports_log_debug _ _)

theorem atomic_assign (name : Value) (value : Operand τ) (declared : TagArgument τ) :
    (assign name value declared).Atomic := by
  intro s e he
  cases hcheck : (checkBinding name value declared).result with
  | ok b =>
    rw [(assign_of_ok hcheck s).1] at he
    cases he
  | error e' => exact (assign_of_error hcheck s).2

end ScopeStack

namespace ScopeCall

variable {τ : Type} [ClassHierarchy τ]

theorem atomic_perform (key : Nat) (c : ScopeCall τ) : (c.perform key).Atomic := by
  cases c with
  | enter name =>
    intro s e he
    rw [(perform_enter key name s).1] at he
    cases he
  | exit => exact ScopeStack.atomic_exit.map some
  | assign name value declared => exact (ScopeStack.atomic_assign name value declared).map _

theorem reports_perform (key : Nat) (c : ScopeCall τ) : (c.perform key).Reports := by
  cases c with
  | enter name => exact (ScopeStack.reports_enter key name).bind fun _ => Action.reports_pure _
  | exit => exact ScopeStack.reports_exit.bind fun _ => Action.reports_pure _
  | assign name value declared =>
    exact (ScopeStack.reports_assign name value declared).bind fun _ => Action.reports_pure _

end ScopeCall

/-! ### Through the gate -/

namespace Gate

variable {τ α : Type}

theorem atomic_onScopes {act : Action (ScopeStack τ) α} (h : act.Atomic) :
    (onScopes act).Atomic := by
  intro g e he
  rw [state_onScopes, h g.scopes e he]

theorem atomic_inContext (c : LogContext) {act : Action (Gate τ) α} (h : act.Atomic) :
    (inContext c act).Atomic := by
  intro g e he
  have hinside := h { g with contexts := g.contexts.push c } e he
  rw [state_inContext, hinside]
  rfl

theorem reports_onScopes {act : Action (ScopeStack τ) α} (h : act.Reports) :
    (onScopes act).Reports := fun g => h g.scopes

variable [ClassHierarchy τ]

theorem atomic_perform (i : Instruction τ) : (perform i).Atomic := by
  cases i with
  | assign name set declared => exact (ScopeStack.atomic_assign name set declared).map _
  | get name expected => exact (Action.atomic_inspect _).map _
  | test set element => exact (Action.atomic_ofTraced _).map _
  | other v => exact Action.atomic_ofTraced _

theorem atomic_evaluate (i : Instruction τ) : (evaluate i).Atomic :=
  atomic_inContext evaluating ((atomic_onScopes (atomic_perform i)).map _)

end Gate

namespace ScopeOperation

variable {τ : Type} [ClassHierarchy τ]

def isPopulation : ScopeOperation τ → Bool
  | populate .. => true
  | _ => false

/-- Whether the operation is a call on the stack itself. -/
def isDirect : ScopeOperation τ → Bool
  | call _ => true
  | lookup _ => true
  | get _ _ => true
  | populate .. => false
  | evaluate _ => false

theorem atomic_perform {op : ScopeOperation τ} (h : op.isPopulation = false) (key : Nat) :
    (op.perform key).Atomic := by
  cases op with
  | call c => exact (Gate.atomic_onScopes (c.atomic_perform key)).map _
  | lookup name => exact (Gate.atomic_onScopes (Action.atomic_inspect _)).map _
  | get name expected => exact (Gate.atomic_onScopes (Action.atomic_inspect _)).map _
  | populate number firstKey definitions => cases h
  | evaluate i => exact (Gate.atomic_evaluate i).map _

theorem reports_perform {op : ScopeOperation τ} (h : op.isDirect = true) (key : Nat) :
    (op.perform key).Reports := by
  cases op with
  | call c =>
    exact (Gate.reports_onScopes (c.reports_perform key)).bind fun _ => Action.reports_pure _
  | lookup name =>
    have hlookup : (Action.inspect fun s : ScopeStack τ => s.lookup name).Reports :=
      Action.reports_inspect fun s => s.reports_lookup name
    exact (Gate.reports_onScopes hlookup).bind fun _ => Action.reports_pure _
  | get name expected =>
    have hget : (Action.inspect fun s : ScopeStack τ => s.get name expected).Reports :=
      Action.reports_inspect fun s => s.reports_get name expected
    exact (Gate.reports_onScopes hget).bind fun _ => Action.reports_pure _
  | populate number firstKey definitions => cases h
  | evaluate i => cases h

/-- An operation with the key for a frame that it enters. -/
def performAs (c : Nat × ScopeOperation τ) : Action (Gate τ) (Response τ) := c.2.perform c.1

/-- **Failed operations are invisible.** An operation that fails, other than a population, leaves
the whole state as it was. A run of such operations ends in the same state without those that fail,
and the others end as they did and leave the same events. An operation on the stack itself that
fails with an error of the library leaves one record at the level of a warning or above, and one
that succeeds leaves none. -/
theorem invisible_of_failed :
    (∀ (op : ScopeOperation τ) (key : Nat) (g : Gate τ) (e : Fault), op.isPopulation = false →
      (op.perform key g).1.result = .error e → (op.perform key g).2 = g) ∧
    (∀ (calls : List (Nat × ScopeOperation τ)) (g : Gate τ),
      (∀ c ∈ calls, c.2.isPopulation = false) →
      Action.final performAs (Action.successful performAs calls g) g =
        Action.final performAs calls g ∧
      Action.outcomes performAs (Action.successful performAs calls g) g =
        (Action.outcomes performAs calls g).filter Traced.succeeded) ∧
    ∀ (op : ScopeOperation τ) (key : Nat) (g : Gate τ), op.isDirect = true →
      (∀ e, (op.perform key g).1.result = .error e → e.isLibraryError = true →
        (op.perform key g).1.alarms.length = 1) ∧
      ∀ r, (op.perform key g).1.result = .ok r → (op.perform key g).1.alarms = [] := by
  refine ⟨?_, ?_, ?_⟩
  · intro op key g e hop he
    exact atomic_perform hop key g e he
  · intro calls g hcalls
    have hatomic : ∀ c ∈ calls, (performAs c).Atomic := fun c hc => atomic_perform (hcalls c hc) c.1
    exact Action.successful_eq hatomic g
  · intro op key g hop
    have hreports : (op.perform key g).1.Reports := reports_perform hop key g
    exact ⟨fun e he herror => hreports.length_of_error he herror,
      fun r hr => hreports.alarms_of_ok hr⟩

/-- A run with six failures: leaving the root frame, an empty name, a wrong type, a value that is no
instruction, a test of no set, and an unknown name. -/
theorem invisible_of_failed_six_times :
    let dogs : FuzzySet ElementType := .primitive ⟨1, .absent, some .dog⟩ .identity
    let bindDogs := call (.assign (.text "tame") (.set dogs) .absent)
    let getCats := get (.text "tame") (.tag .cat)
    let calls := [(1, bindDogs), (2, call .exit),
      (3, call (.assign (.text "") (.set dogs) .absent)), (4, getCats),
      (5, evaluate (.other (.text "x"))), (6, evaluate (.test (.value .absent) .absent)),
      (7, lookup (.text "wild")), (8, call (.enter "rule")),
      (9, evaluate (.get (.text "tame") (.tag .animal))), (10, call .exit)]
    let g := (bindDogs.perform 1 .empty).2
    (Action.successful performAs calls .empty).map Prod.fst = [1, 8, 9, 10] ∧
      Action.final performAs (Action.successful performAs calls .empty) .empty =
        Action.final performAs calls .empty ∧
      Action.outcomes performAs (Action.successful performAs calls .empty) .empty =
        (Action.outcomes performAs calls .empty).filter Traced.succeeded ∧
      (getCats.perform 4 g).2 = g ∧ (getCats.perform 4 g).1.alarms.length = 1 ∧
      (bindDogs.perform 1 .empty).1.alarms = [] := by
  intro dogs bindDogs getCats calls g
  obtain ⟨hstate, hrun, hreports⟩ := invisible_of_failed (τ := ElementType)
  have hcalls : ∀ c ∈ calls, c.2.isPopulation = false := by decide
  have hmismatch : (getCats.perform 4 g).1.result =
      .error (.failure (.requestedMismatch (.text "tame") "Cat" "Dog")) := rfl
  have hbound : (bindDogs.perform 1 .empty).1.result = .ok (.frame none) := rfl
  obtain ⟨hfinal, houtcomes⟩ := hrun calls .empty hcalls
  refine ⟨by decide +kernel, hfinal, houtcomes, ?_, ?_, ?_⟩
  · exact hstate getCats 4 g _ rfl hmismatch
  · exact (hreports getCats 4 g rfl).1 _ hmismatch rfl
  · exact (hreports bindDogs 1 .empty rfl).2 _ hbound

end ScopeOperation

end FuzzyAlgebra

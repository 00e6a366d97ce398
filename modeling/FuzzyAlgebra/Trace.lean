import FuzzyAlgebra.Error.Failure
import FuzzyAlgebra.Logging.Record

/-!
# Computations with a trace

A computation ends with a value or a fault, and leaves behind the events on the way: calls of
membership functions and log records. `Traced` has no state; `Action` also changes a state, and
keeps the changes it made before it failed.
-/

namespace FuzzyAlgebra

/-- Something that happened during a computation. -/
inductive Event where
  /-- The membership function of the primitive set with this key was called. -/
  | called (key : Nat)
  | logged (record : LogRecord)

namespace Event

def record? : Event → Option LogRecord
  | logged record => some record
  | called _ => none

def key? : Event → Option Nat
  | called key => some key
  | logged _ => none

end Event

/-- The end of a computation, with the events that led to it. -/
structure Traced (α : Type) where
  result : Except Fault α
  events : List Event

namespace Traced

variable {α β : Type}

protected def pure (a : α) : Traced α := ⟨.ok a, []⟩

/-- The second computation runs only if the first one succeeded. -/
protected def bind (t : Traced α) (f : α → Traced β) : Traced β :=
  match t.result with
  | .ok a => ⟨(f a).result, t.events ++ (f a).events⟩
  | .error e => ⟨.error e, t.events⟩

instance : Inhabited (Traced α) := ⟨⟨.error (.mishap .wrongType), []⟩⟩

instance : Monad Traced where
  pure := Traced.pure
  bind := Traced.bind

def stop (e : Fault) : Traced α := ⟨.error e, []⟩

def fail (f : Failure) : Traced α := stop (.failure f)

def mishap (m : Mishap) : Traced α := stop (.mishap m)

def log (level : Level) (channel : String) (message : Thunk String) : Traced Unit :=
  ⟨.ok (), [.logged (.telling level channel message)]⟩

def called (key : Nat) : Traced Unit := ⟨.ok (), [.called key]⟩

def ofExcept (r : Except Fault α) : Traced α := ⟨r, []⟩

def ofMishap : Except Mishap α → Traced α
  | .ok a => ⟨.ok a, []⟩
  | .error m => ⟨.error (.mishap m), []⟩

def failWith (level : Level) (channel : String) (message : Thunk String) (f : Failure) :
    Traced α :=
  ⟨.error (.failure f), [.logged (.telling level channel message)]⟩

/-- Logs a message with values that are written into it when it is read. -/
def logQuoting (vs : List Value) (level : Level) (channel : String) (message : Thunk String) :
    Traced Unit :=
  let told := Thunk.mk fun _ => if vs.all Value.isWritable then some message.get else none
  ⟨.ok (), [.logged ⟨level, channel, told, none⟩]⟩

/-- Logs a failure with a value written into the message. A value that cannot be written is a mishap
instead, and nothing is logged. -/
def failQuoting (v : Value) (level : Level) (channel : String) (message : Thunk String)
    (f : Failure) : Traced α :=
  if v.isWritable then failWith level channel message f else mishap .malformed

/-- The result of a computation as a value; the events stay. -/
def attempt (t : Traced α) : Traced (Except Fault α) := ⟨.ok t.result, t.events⟩

def records (t : Traced α) : List LogRecord := t.events.filterMap Event.record?

/-- The keys of the primitive sets whose functions were called, in order. -/
def calls (t : Traced α) : List Nat := t.events.filterMap Event.key?

end Traced

/-- A computation on a state; what it did to the state before a fault stays. -/
def Action (σ α : Type) : Type := σ → Traced α × σ

namespace Action

variable {σ ρ α β : Type}

protected def pure (a : α) : Action σ α := fun s => (Traced.pure a, s)

protected def bind (act : Action σ α) (f : α → Action σ β) : Action σ β := fun s =>
  match act s with
  | (⟨.ok a, events⟩, s) =>
    let (t, s) := f a s
    (⟨t.result, events ++ t.events⟩, s)
  | (⟨.error e, events⟩, s) => (⟨.error e, events⟩, s)

instance : Monad (Action σ) where
  pure := Action.pure
  bind := Action.bind

def ofTraced (t : Traced α) : Action σ α := fun s => (t, s)

instance : MonadLift Traced (Action σ) := ⟨ofTraced⟩

def read : Action σ σ := fun s => (Traced.pure s, s)

def write (s : σ) : Action σ Unit := fun _ => (Traced.pure (), s)

def modify (f : σ → σ) : Action σ Unit := fun s => (Traced.pure (), f s)

/-- A computation that looks at the state and leaves it as it is. -/
def inspect (f : σ → Traced α) : Action σ α := fun s => (f s, s)

def onPart (view : ρ → σ) (update : ρ → σ → ρ) (act : Action σ α) : Action ρ α := fun s =>
  let (t, part) := act (view s)
  (t, update s part)

def attempt (act : Action σ α) : Action σ (Except Fault α) := fun s =>
  let (t, s) := act s
  (t.attempt, s)

/-- The trace of an action as a value; it leaves no events behind. -/
def observe (act : Action σ α) : Action σ (Traced α) := fun s =>
  let (t, s) := act s
  (Traced.pure t, s)

/-- Runs the body on what was acquired and releases it afterwards, however the body ended. A failure
to release replaces the outcome of the body. -/
def bracket (acquire : Action σ β) (body : β → Action σ α) (release : Action σ ρ) :
    Action σ α := do
  let b ← acquire
  let outcome ← (body b).attempt
  let _ ← release
  ofTraced (Traced.ofExcept outcome)

end Action

end FuzzyAlgebra

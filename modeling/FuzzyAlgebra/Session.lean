import FuzzyAlgebra.Definitions.Load
import FuzzyAlgebra.FuzzySet.Expression
import FuzzyAlgebra.Gate

/-!
# Sessions

A session drives one gate step by step. It keeps the sets that steps produce in named registers,
gives every new set and frame a key of its own, and counts the calls of membership functions.
-/

namespace FuzzyAlgebra

/-- A gate with registers, the next unused key, the keys of the primitive sets called so far, and
the frames that were left. -/
structure Session (τ : Type) where
  gate : Gate τ
  registers : List (String × FuzzySet τ)
  nextKey : Nat
  calls : List Nat
  left : List (Frame τ)

namespace Session

variable {τ α : Type}

def empty : Session τ := ⟨.empty, [], 1, [], []⟩

def find? (s : Session τ) (register : String) : Option (FuzzySet τ) :=
  (s.registers.find? fun (name, _) => name = register).map Prod.snd

def holders (s : Session τ) (key : Nat) : List String :=
  Text.sortDistinct ((s.registers.filter fun (_, set) => set.key = key).map Prod.fst)

/-- Registers with a new entry: a register that is there keeps its place. -/
def insert (register : String) (set : FuzzySet τ) :
    List (String × FuzzySet τ) → List (String × FuzzySet τ)
  | [] => [(register, set)]
  | (name, old) :: rest =>
    if name = register then (name, set) :: rest else (name, old) :: insert register set rest

def put (register : String) (set : FuzzySet τ) (s : Session τ) : Session τ :=
  { s with registers := insert register set s.registers }

/-- A frame as it was last seen: on the stack, or when it was left. -/
def frame? (s : Session τ) (key : Nat) : Option (Frame τ) :=
  (s.gate.scopes.frames ++ s.left).find? fun frame => frame.key = key

/-- Each register that holds a primitive set, with the number of calls of its function; nothing is
known about functions that are not counted. -/
def callCounts (s : Session τ) : List (String × Option Nat) :=
  s.registers.filterMap fun (name, set) =>
    match set with
    | .primitive label function =>
      some (name, if function.counted then some (s.calls.count label.key) else none)
    | _ => none

/-! ### Steps -/

def freshKey : Action (Session τ) Nat := fun s =>
  (Traced.pure s.nextKey, { s with nextKey := s.nextKey + 1 })

def counted (act : Action (Session τ) α) : Action (Session τ) α := fun s =>
  let (t, s) := act s
  (⟨t.result, t.events.filter fun e => e.key?.isNone⟩, { s with calls := s.calls ++ t.calls })

def onGate (act : Action (Gate τ) α) : Action (Session τ) α :=
  act.onPart Session.gate fun s gate => { s with gate }

def onScopes (act : Action (ScopeStack τ) α) : Action (Session τ) α := onGate (Gate.onScopes act)

def keep (register : Option String) (set : FuzzySet τ) : Action (Session τ) (FuzzySet τ) := fun s =>
  (Traced.pure set, match register with
    | some register => s.put register set
    | none => s)

def create (register : Option String) (make : Nat → Traced (FuzzySet τ)) :
    Action (Session τ) (FuzzySet τ) := do
  let key ← freshKey
  let set ← make key
  keep register set

variable [ClassHierarchy τ]

/-- Combines a set with an operator again and again, with itself or with a second operand. -/
def chainFrom (operator : Value) (double : Bool) (second : Operand τ) (threshold : Value) :
    Nat → Operand τ → Action (Session τ) (Operand τ)
  | 0, first => pure first
  | n + 1, first => do
    let key ← freshKey
    let other := if double then first else second
    let set ← FuzzySet.combine key first operator other threshold .absent
    chainFrom operator double second threshold n (.set set)

def chain (register : Option String) (first : Operand τ) (operator : Value) (n : Nat)
    (double : Bool) (second : Operand τ) (threshold : Value) :
    Action (Session τ) (Operand τ) := do
  match ← chainFrom operator double second threshold n first with
  | .set set =>
    let set ← keep register set
    pure (.set set)
  | .value v => pure (.value v)

omit [ClassHierarchy τ] in
def enter (name : String) : Action (Session τ) (Frame τ) := do
  let key ← freshKey
  onScopes (ScopeStack.enter key name)

omit [ClassHierarchy τ] in
def exit : Action (Session τ) (Frame τ) := do
  let frame ← onScopes ScopeStack.exit
  .modify fun s => { s with left := frame :: s.left }
  pure frame

omit [ClassHierarchy τ] in
/-- Runs a body in a new frame; also returns the frame as it is afterwards. -/
def within (name : String) (body : Action (Session τ) α) :
    Action (Session τ) (Option (Frame τ) × α) := do
  let (key, a) ← Action.bracket (enter name)
    (fun frame => do
      let a ← body
      pure (frame.key, a))
    exit
  let s ← Action.read
  pure (s.frame? key, a)

/-- Evaluates an instruction and keeps its answer if that is a set. -/
def evaluate (register : Option String) (i : Instruction τ) :
    Action (Session τ) (Evaluation τ) := do
  let evaluation ← onGate (Gate.evaluate i)
  match evaluation.answer with
  | .set set =>
    let _ ← keep register set
    pure evaluation
  | _ => pure evaluation

def keepAll : List (String × FuzzySet τ) → Action (Session τ) Unit
  | [] => pure ()
  | (name, set) :: rest => do
    let _ ← keep (some name) set
    keepAll rest

/-- Loads definitions, binds their sets over the numbers, and keeps each under its name. -/
def populate (number : τ) (config : Value) : Action (Session τ) (List (String × FuzzySet τ)) := do
  let ds ← Definitions.load config
  let s ← Action.read
  let sets ← onScopes (Definitions.populate number s.nextKey ds)
  .modify fun s => { s with nextKey := s.nextKey + ds.length }
  keepAll sets
  pure sets

end Session

end FuzzyAlgebra

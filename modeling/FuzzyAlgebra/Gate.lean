import FuzzyAlgebra.FuzzySet.Membership
import FuzzyAlgebra.Logging.Context
import FuzzyAlgebra.Scope.Stack

/-!
# The evaluation gate

Programs are sequences of three instructions: bind a set, look one up, and test an element for
membership. The gate runs them one after the other against a stack of frames and stops at the first
failure. Its only other state is the stack of log contexts, which it leaves as it found it.
-/

namespace FuzzyAlgebra

/-- An instruction, or a value that is none. -/
inductive Instruction (τ : Type) where
  | assign (name : Value) (set : Operand τ) (declared : TagArgument τ)
  | get (name : Value) (expected : TagArgument τ)
  | test (set : Operand τ) (element : Value)
  | other (v : Value)

/-- What an instruction evaluates to. -/
inductive Answer (τ : Type) where
  | nothing
  | set (s : FuzzySet τ)
  | degree (d : Degree)

/-- An instruction with its answer. -/
structure Evaluation (τ : Type) where
  instruction : Instruction τ
  answer : Answer τ

/-- The state that instructions run against. -/
structure Gate (τ : Type) where
  scopes : ScopeStack τ
  contexts : ContextStack

namespace Gate

variable {τ : Type}

def empty : Gate τ := ⟨.empty, []⟩

def evaluating : LogContext := .ofFunction "evaluate" "EvaluationGate.evaluate" (some "evaluate") []

def onScopes {α : Type} (act : Action (ScopeStack τ) α) : Action (Gate τ) α :=
  act.onPart Gate.scopes fun g scopes => { g with scopes }

def passEvent (contexts : ContextStack) : Event → Event
  | .logged r => .logged (contexts.enrich r)
  | .called key => .called key

/-- Runs an action inside a log context, which is taken off again however the action ends. -/
def inContext {α : Type} (c : LogContext) (act : Action (Gate τ) α) : Action (Gate τ) α := fun g =>
  let contexts := g.contexts.push c
  let (t, g) := act { g with contexts }
  (⟨t.result, t.events.map (passEvent contexts)⟩, { g with contexts := g.contexts.pop })

def testedSet : Operand τ → Traced (FuzzySet τ)
  | .set s => pure s
  | .value v =>
    .failWith .error Channel.gate ("TestGate target is not a fuzzy set: " ++ v.typeName)
      (.testedNotASet v.typeName)

def testMembership (set : Operand τ) (element : Value) : Traced Degree := do
  let s ← testedSet set
  let d ← s.membership element
  let label ← .ofMishap s.describe
  .logQuoting [element, label] .debug Channel.gate
    ("Membership of " ++ element.display ++ " in " ++ label.plain ++ ": " ++ d.number.render)
  pure d

variable [ClassHierarchy τ]

def perform : Instruction τ → Action (ScopeStack τ) (Answer τ)
  | .assign name set declared => do
    ScopeStack.assign name set declared
    pure .nothing
  | .get name expected => do
    let s ← Action.inspect fun scopes => scopes.get name expected
    pure (.set s)
  | .test set element => do
    let d ← testMembership set element
    pure (.degree d)
  | .other v =>
    Traced.failQuoting v .error Channel.gate ("Unknown instruction: " ++ v.display)
      (.unknownInstruction v.typeName)

def evaluate (i : Instruction τ) : Action (Gate τ) (Evaluation τ) :=
  inContext evaluating do
    let answer ← onScopes (perform i)
    pure ⟨i, answer⟩

/-- Evaluates instructions in order, up to the first failure. -/
def run : List (Instruction τ) → Action (Gate τ) (List (Evaluation τ))
  | [] => pure []
  | i :: rest => do
    let first ← evaluate i
    let others ← run rest
    pure (first :: others)

end Gate

end FuzzyAlgebra

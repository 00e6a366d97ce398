import FuzzyAlgebra.FuzzySet.Basic

/-!
# Building fuzzy sets

`primitive` and `combine` build new sets out of membership functions and existing sets. All that can
be wrong with a combination is found here, and nothing is evaluated.
-/

namespace FuzzyAlgebra

namespace FuzzySet

variable {τ : Type} [ClassHierarchy τ]

/-- Something given where a membership function is expected. -/
inductive FunctionArgument where
  | function (f : MembershipFunction)
  | other (typeName : String)

/-- What a value is as a membership function: types can be called, and so can most type
expressions. -/
def FunctionArgument.ofValue : Value → FunctionArgument
  | .type t => function (.ofType t)
  | .generic t => if t.form = .inert then other t.kindName else function (.ofGeneric t)
  | v => other v.typeName

def makePrimitive (key : Nat) (function : FunctionArgument) (tag : TagArgument τ)
    (name : Value) : Traced (FuzzySet τ) :=
  match function with
  | .other typeName => do
    .log .error Channel.sets ("Primitive set needs a callable, got " ++ typeName)
    .mishap (.notCallable typeName)
  | .function f => do
    let elementType ← validateTag tag "element_type"
    pure (.primitive ⟨key, name, elementType⟩ f)

def ofFunction (key : Nat) (function : FunctionArgument) (tag : TagArgument τ)
    (name : Value) : Traced (FuzzySet τ) := do
  let s ← makePrimitive key function tag name
  let label ← .ofMishap s.describe
  .logQuoting [label] .debug Channel.sets ("Created " ++ label.plain)
  pure s

/-- The most general of two element types; nothing is known about an untagged set. -/
def generalType (first second : Option τ) : Option (Option τ) :=
  match first, second with
  | none, t => some t
  | t, none => some t
  | some s, some t =>
    if ClassHierarchy.isSubclass s t then some (some t)
    else if ClassHierarchy.isSubclass t s then some (some s)
    else none

/-- The names of element types that have nothing in common, sorted. -/
def typeNames (types : List (Option τ)) : List String :=
  Text.sortDistinct (types.filterMap fun t => t.map ClassHierarchy.name)

def combinedType (op : Operator) (first second : Option τ) : Traced (Option τ) :=
  match generalType first second with
  | some t => pure t
  | none =>
    let names := typeNames [first, second]
    .failWith .error Channel.sets
      ("Cannot combine sets over different element types with " ++ op.label ++ ": "
        ++ (Value.list (names.map .text)).display)
      (.incompatibleOperands op names)

/-- The operand as a fuzzy set; nothing, if nothing was given. -/
def operandSet (op : Operator) : Operand τ → Traced (Option (FuzzySet τ))
  | .set s => pure (some s)
  | .value .absent => pure none
  | .value v =>
    .failQuoting v .error Channel.sets
      ("Operand of " ++ op.label ++ " is not a fuzzy set: " ++ v.display)
      (.operandNotASet op v.typeName)

def present : Option (FuzzySet τ) → Traced (FuzzySet τ)
  | some s => pure s
  | none => .mishap .noSuchMember

def makeBinary (key : Nat) (name : Value) (operation : BinaryOperation)
    (first second : Option (FuzzySet τ)) (threshold : Value) : Traced (FuzzySet τ) :=
  let op := operation.operator
  match second with
  | none =>
    .failWith .error Channel.sets
      ("Binary operator " ++ op.label ++ " combined without second operand") (.missingOperand op)
  | some second => do
    let _ ← op.validateThreshold threshold
    let first ← present first
    let elementType ← combinedType op first.elementType second.elementType
    pure (.binary ⟨key, name, elementType⟩ operation first second)

def makeUnary (key : Nat) (name : Value) (op : Operator) (isUnary : op.isBinary = false)
    (first second : Option (FuzzySet τ)) (threshold : Value) : Traced (FuzzySet τ) :=
  match second with
  | some _ =>
    .failWith .error Channel.sets
      ("Unary operator " ++ op.label ++ " combined with a second operand") (.unexpectedOperand op)
  | none => do
    let cut ← op.validateThreshold threshold
    let first ← present first
    pure (.unary ⟨key, name, first.elementType⟩ ⟨op, cut, isUnary⟩ first)

def makeComposite (key : Nat) (operator : Value) (first second : Operand τ) (threshold : Value)
    (name : Value) : Traced (FuzzySet τ) := do
  let op ← .ofExcept (Operator.ofValue operator)
  let first ← operandSet op first
  let second ← operandSet op second
  if h : op.isBinary = true then
    makeBinary key name ⟨op, h⟩ first second threshold
  else
    makeUnary key name op (Bool.eq_false_iff.mpr h) first second threshold

def combine (key : Nat) (first : Operand τ) (operator : Value) (second : Operand τ)
    (threshold : Value) (name : Value) : Traced (FuzzySet τ) := do
  let s ← makeComposite key operator first second threshold name
  let label ← .ofMishap s.describe
  .logQuoting [label] .debug Channel.sets ("Combined " ++ label.plain)
  pure s

end FuzzySet

end FuzzyAlgebra

import FuzzyAlgebra.MembershipFunction
import FuzzyAlgebra.Operator.Degrees

/-!
# Fuzzy sets

A fuzzy set is a membership function, or an operator applied to fuzzy sets that exist already. The
arity of the operator and the threshold of a cut are right by construction. Sets are shared freely,
so each carries a key: two places that hold the same set hold the same key.
-/

namespace FuzzyAlgebra

/-- What every fuzzy set carries besides its meaning. A name can be a value of any kind; the absent
value stands for none. -/
structure Label (τ : Type) where
  key : Nat
  name : Value
  elementType : Option τ

namespace Label

variable {τ : Type}

/-- The name, if it counts as one. -/
def shownName (l : Label τ) : Except Mishap (Option Value) :=
  l.name.truth.map fun named => if named then some l.name else none

def isWritable (l : Label τ) : Bool :=
  match l.shownName with
  | .ok name => name.all Value.isWritable
  | .error _ => false

end Label

/-- A unary operator with the threshold that goes with it. -/
structure UnaryOperation where
  operator : Operator
  threshold : operator.Threshold
  isUnary : operator.isBinary = false

/-- A binary operator. -/
structure BinaryOperation where
  operator : Operator
  isBinary : operator.isBinary = true

/-- A fuzzy set over elements that may be tagged with a type from `τ`. -/
inductive FuzzySet (τ : Type) where
  | primitive (label : Label τ) (function : MembershipFunction)
  | unary (label : Label τ) (operation : UnaryOperation) (operand : FuzzySet τ)
  | binary (label : Label τ) (operation : BinaryOperation) (first second : FuzzySet τ)

namespace FuzzySet

variable {τ : Type}

def label : FuzzySet τ → Label τ
  | primitive label _ => label
  | unary label _ _ => label
  | binary label _ _ _ => label

def key (s : FuzzySet τ) : Nat := s.label.key

def name (s : FuzzySet τ) : Value := s.label.name

def elementType (s : FuzzySet τ) : Option τ := s.label.elementType

def operands : FuzzySet τ → List (FuzzySet τ)
  | primitive .. => []
  | unary _ _ operand => [operand]
  | binary _ _ first second => [first, second]

def operator? : FuzzySet τ → Option Operator
  | primitive .. => none
  | unary _ operation _ => some operation.operator
  | binary _ operation _ _ => some operation.operator

def threshold? : FuzzySet τ → Option Degree
  | unary _ operation _ => operation.threshold.val
  | _ => none

def isPrimitive : FuzzySet τ → Bool
  | primitive .. => true
  | _ => false

def className (s : FuzzySet τ) : String :=
  if s.isPrimitive then "PrimitiveSet" else "CompositeSet"

/-- What a set is called inside the label of another: its name, which must be a text there, or the
name of its variant. -/
def innerName (s : FuzzySet τ) : Except Mishap String := do
  match ← s.label.shownName with
  | none => .ok s.className
  | some (.text name) => .ok name
  | some _ => .error .wrongType

/-- A label that looks no further than the direct operands; the name as it is, if there is one. -/
def describe (s : FuzzySet τ) : Except Mishap Value := do
  match ← s.label.shownName, s.operator? with
  | some name, _ => .ok name
  | none, none => .ok (.text s.className)
  | none, some op => do
    let names ← s.operands.mapM innerName
    pure (.text (op.label ++ "(" ++ ", ".intercalate names ++ ")"))

def thresholdText : Option Degree → String
  | some d => ", threshold=" ++ d.number.render
  | none => ""

def nameMark (l : Label τ) : String :=
  match l.shownName with
  | .ok (some name) => name.plain ++ "="
  | _ => ""

def display : FuzzySet τ → String
  | primitive label function =>
    match label.shownName with
    | .ok (some name) => "PrimitiveSet(" ++ name.display ++ ")"
    | _ => "PrimitiveSet(" ++ function.display ++ ")"
  | unary label operation operand =>
    nameMark label ++ operation.operator.label ++ "(" ++ operand.display
      ++ thresholdText operation.threshold.val ++ ")"
  | binary label operation first second =>
    nameMark label ++ operation.operator.label ++ "(" ++ first.display ++ ", " ++ second.display
      ++ ")"

/-- Whether a set can be written: all names in it that count as such can. -/
def isWritable : FuzzySet τ → Bool
  | primitive label _ => label.isWritable
  | unary label _ operand => label.isWritable && operand.isWritable
  | binary label _ first second => label.isWritable && first.isWritable && second.isWritable

/-- The set as a value, of which its kind, its written form and its key are known. -/
def toValue (s : FuzzySet τ) : Value :=
  .object s.className (Thunk.mk fun _ => if s.isWritable then some s.display else none)
    (some s.key)

end FuzzySet

/-- Something given where a fuzzy set is expected. -/
inductive Operand (τ : Type) where
  | set (s : FuzzySet τ)
  | value (v : Value)

namespace Operand

variable {τ : Type}

def typeName : Operand τ → String
  | set s => s.className
  | value v => v.typeName

def display : Operand τ → String
  | set s => s.display
  | value v => v.display

end Operand

/-- Something given where an element type is expected. -/
inductive TagArgument (τ : Type) where
  | absent
  | tag (t : τ)
  | other (v : Value)

def validateTag {τ : Type} (tag : TagArgument τ) (role : String) : Traced (Option τ) :=
  match tag with
  | .absent => pure none
  | .tag t => pure (some t)
  | .other v =>
    .failQuoting v .error Channel.sets ("Invalid " ++ role ++ " tag: " ++ v.display)
      (.invalidTag role v.display)

namespace TagArgument

def ofValue : Value → TagArgument ElementType
  | .absent => absent
  | .type t => tag t
  | v => other v

end TagArgument

end FuzzyAlgebra

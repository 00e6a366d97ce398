import FuzzyAlgebra.Text.Lower

/-!
# Operators on fuzzy sets

The closed list of ways to combine fuzzy sets, each with its label and its number of operands. The
meaning of an operator on degrees is in `FuzzyAlgebra.Operator.Degrees`.
-/

namespace FuzzyAlgebra

/-- A way to combine fuzzy sets. -/
inductive Operator where
  | union
  | intersection
  | complement
  | add
  | multiply
  | difference
  | alphaCut
  deriving DecidableEq, Repr

namespace Operator

def all : List Operator :=
  [union, intersection, complement, add, multiply, difference, alphaCut]

def label : Operator → String
  | union => "union"
  | intersection => "intersection"
  | complement => "complement"
  | add => "add"
  | multiply => "multiply"
  | difference => "difference"
  | alphaCut => "alpha_cut"

def memberName : Operator → String
  | union => "UNION"
  | intersection => "INTERSECTION"
  | complement => "COMPLEMENT"
  | add => "ADD"
  | multiply => "MULTIPLY"
  | difference => "DIFFERENCE"
  | alphaCut => "ALPHA_CUT"

def display (op : Operator) : String := "Operator." ++ op.memberName

def arity : Operator → Nat
  | complement => 1
  | alphaCut => 1
  | _ => 2

def isBinary (op : Operator) : Bool := op.arity = 2

def requiresThreshold (op : Operator) : Bool := op = alphaCut

def compactLabel (op : Operator) : List Char := op.label.toList.filter (· ≠ '_')

/-- A name made comparable with labels: hyphens become underscores, then all is lower case. -/
def nameKey (name : String) : List Char :=
  Text.lowerChars (name.toList.map fun c => if c = '-' then '_' else c)

/-- The operator of a label, with or without its underscores. -/
def ofName? (name : String) : Option Operator :=
  let key := nameKey name
  all.find? fun op => key = op.label.toList ∨ key = op.compactLabel

def ofMember? (name : String) : Option Operator :=
  all.find? fun op => op.memberName = name

end Operator

end FuzzyAlgebra

import FuzzyAlgebra.FuzzySet.Combine

/-!
# Expressions of fuzzy sets

Combinations written with operator signs and methods. They differ from `combine` only in what they
say to operands that are no fuzzy sets: such values have no such sign or method.
-/

namespace FuzzyAlgebra.FuzzySet

variable {τ : Type} [ClassHierarchy τ]

/-- `first op second`, for an operator with a sign of its own. -/
def infixed (key : Nat) (op : Operator) (first second : Operand τ) : Traced (FuzzySet τ) :=
  match first, second with
  | .set _, .set _ => combine key first (.operator op) second .absent .absent
  | _, _ => .mishap .wrongType

def inverted (key : Nat) (operand : Operand τ) : Traced (FuzzySet τ) :=
  match operand with
  | .set _ => combine key operand (.operator .complement) (.value .absent) .absent .absent
  | .value _ => .mishap .wrongType

def complement (key : Nat) (operand : Operand τ) : Traced (FuzzySet τ) :=
  match operand with
  | .set _ => combine key operand (.operator .complement) (.value .absent) .absent .absent
  | .value _ => .mishap .noSuchMember

def alphaCut (key : Nat) (operand : Operand τ) (threshold : Value) : Traced (FuzzySet τ) :=
  match operand with
  | .set _ => combine key operand (.operator .alphaCut) (.value .absent) threshold .absent
  | .value _ => .mishap .noSuchMember

/-- A call of a method of a fuzzy set on something that may be none. -/
def receiver : Operand τ → Traced (FuzzySet τ)
  | .set s => pure s
  | .value _ => .mishap .noSuchMember

end FuzzyAlgebra.FuzzySet

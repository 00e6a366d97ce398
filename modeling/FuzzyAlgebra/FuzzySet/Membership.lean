import FuzzyAlgebra.FuzzySet.Basic
import FuzzyAlgebra.Series

/-!
# Membership

The degree of an element in a fuzzy set. Every query walks the whole graph again: each path from
the set to a primitive set calls that set's function once, the first operand before the second.
-/

namespace FuzzyAlgebra

namespace FuzzySet

variable {τ : Type}

/-- The degree of an element in a primitive set. A number out of range is reported with the set and
the element, if all three can be written; every other fault is the function's own. -/
def leafMembership (label : Label τ) (function : MembershipFunction) (x : Value) :
    Traced Degree := do
  .called label.key
  let result ← .ofExcept (function.apply x)
  match Degree.ofValue result with
  | .ok d => pure d
  | .error (.failure (.notADegree number)) =>
    let set := (primitive label function).display
    if !(label.isWritable && result.isWritable && x.isWritable) then .mishap .malformed
    else
      .failWith .error Channel.sets
        ("Membership function of " ++ set ++ " returned " ++ result.display ++ " for element "
          ++ x.display)
        (.leafOutOfRange set result.display label.name x.display number)
  | .error e => .stop e

def degreeValue : Option Degree → Value
  | some d => .degree d
  | none => .absent

def membership : FuzzySet τ → Value → Traced Degree
  | primitive label function, x => leafMembership label function x
  | unary _ operation operand, x => do
    let d ← operand.membership x
    operation.operator.apply (.degree d) .absent (degreeValue operation.threshold.val)
  | binary _ operation first second, x => do
    let d ← first.membership x
    let e ← second.membership x
    operation.operator.apply (.degree d) (.degree e) .absent

/-- The degrees of elements, in order, up to the first fault. -/
def memberships (s : FuzzySet τ) (elements : List Value) : Traced (List Degree) :=
  elements.mapM s.membership

/-- The degrees of many elements, taken one by one: the fault that says that there are no more of
them is not let through as such. -/
def sample (s : FuzzySet τ) (elements : List Value) : Traced (List Degree) := do
  let degrees ← (s.memberships elements).attempt
  .ofExcept (degrees.mapError Fault.duringWalk)

/-- The degrees of a series of elements, under the same labels and the same name. -/
def sampleSeries (s : FuzzySet τ) (elements : Series Value) : Traced (Series Degree) := do
  let label ← .ofMishap s.describe
  .logQuoting [label] .debug Channel.sets
    ("Sampling " ++ label.plain ++ " over pandas Series of length "
      ++ toString elements.values.length)
  let degrees ← s.memberships elements.values
  pure { elements with values := degrees }

def sampleArray (s : FuzzySet τ) (elements : List Value) : Traced (List Degree) := do
  let rows ← .ofMishap (do (← (Value.list elements).toNumberArray).iterate)
  s.sample rows

end FuzzySet

end FuzzyAlgebra

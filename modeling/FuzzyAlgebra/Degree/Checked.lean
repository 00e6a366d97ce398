import FuzzyAlgebra.Trace
import FuzzyAlgebra.Value.Order

/-!
# Checked degrees

The two ways from a value to a degree: `Degree.ofValue` rejects what is out of range, and
`Degree.clamp` first moves it to the nearer end. Neither lets NaN through.
-/

namespace FuzzyAlgebra

namespace Degree

def ofNumber (x : Binary64) : Except Fault Degree :=
  match ofNumber? x with
  | some d => .ok d
  | none => .error (.failure (.notADegree x))

def ofValue : Value → Except Fault Degree
  | .degree d => .ok d
  | v =>
    if v.isReal then
      match v.toBinary64 with
      | .ok x => ofNumber x
      | .error m => .error (.mishap m)
    else if v.isWritable then .error (.failure (.notNumeric v))
    else .error (.mishap .malformed)

def clip (x : Binary64) : Binary64 :=
  if x.isNaN then x else Binary64.min 1 (Binary64.max 0 x)

def clampNumber (x : Binary64) : Except Fault Degree := ofNumber (clip x)

/-- The degree of anything that converts to a number, after it is moved into range. -/
def clamp (v : Value) : Except Fault Degree :=
  match v.toBinary64 with
  | .ok x => clampNumber x
  | .error m => .error (.mishap m)

end Degree

end FuzzyAlgebra

import FuzzyAlgebra.Degree.Checked

/-!
# Operators on degrees

What each operator does to the degrees of its operands, and the checks around it: the number of
degrees and the threshold have to fit the operator, and the result is moved into range.
-/

namespace FuzzyAlgebra.Operator

/-- The degree of a combination, before it is moved into range. A unary operator ignores `b`, and
only a cut looks at `t`. -/
def combineNumbers (op : Operator) (a b t : Binary64) : Binary64 :=
  match op with
  | union => Binary64.max a b
  | intersection => Binary64.min a b
  | complement => 1 - a
  | add => Binary64.min 1 (a + b)
  | multiply => a * b
  | difference => Binary64.max 0 (a - b)
  | alphaCut => if t ≤ a then 1 else 0

/-- A threshold that fits the operator: a cut has one, and nothing else does. -/
def Threshold (op : Operator) : Type := { t : Option Degree // t.isSome = op.requiresThreshold }

/-- Checks a threshold against the operator: a cut needs one in range, and nothing else takes
one. -/
def validateThreshold (op : Operator) (threshold : Value) : Traced (Threshold op) :=
  if h : op.requiresThreshold = true then
    match threshold with
    | .absent =>
      .failWith .error Channel.operators "Alpha-cut constructed without a threshold"
        (.missingThreshold op)
    | threshold =>
      match Degree.ofValue threshold with
      | .ok d => pure ⟨some d, h.symm⟩
      | .error (.failure (.notADegree x)) =>
        .failQuoting threshold .error Channel.operators
          ("Alpha-cut threshold out of range: " ++ threshold.plain)
          (.thresholdOutOfRange op threshold x)
      | .error e => .stop e
  else
    match threshold with
    | .absent => pure ⟨none, (Bool.eq_false_iff.mpr h).symm⟩
    | threshold =>
      .failQuoting threshold .error Channel.operators
        ("Threshold " ++ threshold.plain ++ " given to " ++ op.label ++ ", which takes none")
        (.unexpectedThreshold op threshold)

/-- A number that is left out counts as zero; the operators that are given none do not look at
it. -/
def numberOrZero : Value → Except Mishap Binary64
  | .absent => .ok 0
  | v => v.toBinary64

def apply (op : Operator) (a b threshold : Value) : Traced Degree :=
  match op.isBinary, b with
  | true, .absent => .fail (.missingDegree op)
  | false, .absent => applyTo op a .absent threshold
  | true, b => applyTo op a b threshold
  | false, _ => .fail (.unexpectedDegree op)
where
  /-- The degree of a combination with the right number of degrees. -/
  applyTo (op : Operator) (a b threshold : Value) : Traced Degree := do
    let cut ← op.validateThreshold threshold
    let x ← .ofMishap a.toBinary64
    let y ← .ofMishap (numberOrZero b)
    let t := match cut.val with
      | some d => d.number
      | none => 0
    .ofExcept (Degree.clampNumber (op.combineNumbers x y t))

/-- The operator that a value names: itself, or the one of its written form. -/
def ofValue (v : Value) : Except Fault Operator :=
  match v with
  | .operator op => .ok op
  | v =>
    if v.isWritable then
      match ofName? v.plain with
      | some op => .ok op
      | none => .error (.failure (.unknownOperator v.plain))
    else .error (.mishap .malformed)

def named (v : Value) : Except Fault Operator :=
  match v with
  | .text s =>
    match ofName? s with
    | some op => .ok op
    | none => .error (.failure (.unknownOperator s))
  | _ => .error (.mishap .noSuchMember)

end FuzzyAlgebra.Operator

import FuzzyAlgebra.Value.Order

/-!
# Series

A series has values with a label each, and a name. Labels that are all numbers are of one kind:
whole numbers stay whole unless a number with a fraction, or nothing at all, is among them.
-/

namespace FuzzyAlgebra

/-- Values with labels and a name. -/
structure Series (α : Type) where
  index : List Value
  name : Value
  values : List α

namespace Series

def whole? : Value → Option Int
  | .int n => some n
  | .scalar (.int64 n) => some n
  | _ => none

/-- Whether whole numbers fit into words, all with a sign or all without one. -/
def fitWords (ns : List Int) : Bool :=
  ns.all (fun n => -(2 ^ 63) ≤ n && n < 2 ^ 63) || ns.all (fun n => 0 ≤ n && n < 2 ^ 64)

/-- The number of a label beside numbers with fractions; nothing counts as no number. -/
def number? : Value → Option Binary64
  | .absent => some .nan
  | .float x => some x
  | .degree d => some d.number
  | .scalar (.float64 x) => some x
  | .scalar (.float32 x) => some x
  | v => (whole? v).bind fun n => if fitWords [n] then some (.ofInt n) else none

def truth? : Value → Option Bool
  | .bool b => some b
  | .scalar (.bool b) => some b
  | _ => none

def labels (given : List Value) : List Value :=
  match given.mapM whole?, given.mapM number?, given.mapM truth? with
  | some ns, _, _ => if fitWords ns then ns.map .int else given
  | none, some xs, _ => if given.all Value.isAbsent then given else xs.map .float
  | none, none, some bs => bs.map .bool
  | none, none, none => given

/-- The labels of so many values: those given, one for each value, or else their places. -/
def indexOf (count : Nat) : Value → Except Mishap (List Value)
  | .absent => .ok ((List.range count).map fun i => .int (Int.ofNat i))
  | .list given | .tuple given =>
    if given.length = count then .ok (labels given) else .error .malformed
  | _ => .error .wrongType

/-- The series of values, with labels and a name that can be looked up. -/
def make {α : Type} (values : List α) (index name : Value) : Except Mishap (Series α) := do
  if !name.isHashable then .error .wrongType
  else pure ⟨← indexOf values.length index, name, values⟩

end Series

end FuzzyAlgebra

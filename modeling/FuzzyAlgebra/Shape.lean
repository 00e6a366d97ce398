import FuzzyAlgebra.Binary64.Exp
import FuzzyAlgebra.Degree.Checked

/-!
# Shaped membership functions

Triangles, trapezoids and bell curves over the numbers. A shape is built from a list of parameters
in order; its degree at NaN is NaN, at any other number a number, and at anything else a mishap.
-/

namespace FuzzyAlgebra

namespace Value

/-- The least and greatest whole numbers that can be tested for NaN. -/
def testableWhole (n : Int) : Bool := -(2 ^ 63) ≤ n && n < 2 ^ 64

/-- Whether a single value is NaN; whole numbers that do not fit 64 bits cannot be tested. -/
def itemIsNaN : Value → Except Mishap Bool
  | bool _ => .ok false
  | int n => if testableWhole n then .ok false else .error .wrongType
  | float x => .ok x.isNaN
  | degree _ => .ok false
  | scalar (.float64 x) => .ok x.isNaN
  | scalar (.float32 x) => .ok x.isNaN
  | scalar _ => .ok false
  | _ => .error .wrongType

/-- Whether a number is NaN. A list of one number answers for that number; a list that is no array
of numbers, or an array of none or of several, cannot be tested. -/
def isNaN (v : Value) : Except Mishap Bool :=
  if v.isArrayLike then
    match v.shape?, v.itemKind, v.leaves with
    | none, _, _ => .error .malformed
    | _, .text, _ => .error .wrongType
    | _, .any, _ => .error .wrongType
    | _, _, [item] => item.itemIsNaN
    | _, _, _ => .error .malformed
  else v.itemIsNaN

def slope (x y width : Value) : Except Mishap Value := do (← x.sub y).div width

end Value

/-- A triangle that rises from `a` to its peak `b` and falls to `c`. -/
structure Triangle where
  a : Binary64
  b : Binary64
  c : Binary64
  rising : a ≤ b
  falling : b ≤ c

/-- A trapezoid that rises from `a` to `b`, stays at one, and falls from `c` to `d`. -/
structure Trapezoid where
  a : Binary64
  b : Binary64
  c : Binary64
  d : Binary64
  rising : a ≤ b
  level : b ≤ c
  falling : c ≤ d

/-- A bell curve around `mu`, `sigma` wide. -/
structure Gaussian where
  mu : Binary64
  sigma : Binary64
  wide : ¬ sigma ≤ 0

/-- The divisor of a ramp: its width, but never less than the distance from one to the next
number, so that an upright edge does not divide by zero. That distance is a wide item. -/
def rampWidth (low high : Binary64) : Value :=
  if high - low < Binary64.epsilon then .scalar (.float64 Binary64.epsilon) else .float (high - low)

def ramp (x y width : Value) : Except Mishap Binary64 := do (← Value.slope x y width).toBinary64

namespace Triangle

def parameters (t : Triangle) : List Binary64 := [t.a, t.b, t.c]

def degree (t : Triangle) (x : Value) : Except Mishap Binary64 := do
  if ← x.isNaN then .ok .nan
  else if x.eqNumber t.b then .ok 1
  else if (← x.le (.float t.a)) || (← Value.le (.float t.c) x) then .ok 0
  else if ← x.lt (.float t.b) then ramp x (.float t.a) (rampWidth t.a t.b)
  else ramp (.float t.c) x (rampWidth t.b t.c)

end Triangle

namespace Trapezoid

def parameters (t : Trapezoid) : List Binary64 := [t.a, t.b, t.c, t.d]

/-- One on the plateau, zero outside, and linear in between. -/
def degree (t : Trapezoid) (x : Value) : Except Mishap Binary64 := do
  if ← x.isNaN then .ok .nan
  else if (← Value.le (.float t.b) x) && (← x.le (.float t.c)) then .ok 1
  else if (← x.le (.float t.a)) || (← Value.le (.float t.d) x) then .ok 0
  else if ← x.lt (.float t.b) then ramp x (.float t.a) (rampWidth t.a t.b)
  else ramp (.float t.d) x (rampWidth t.c t.d)

end Trapezoid

namespace Gaussian

def parameters (g : Gaussian) : List Binary64 := [g.mu, g.sigma]

def exponential (v : Value) : Except Mishap Binary64 :=
  match v with
  | .scalar (.float32 x) => .ok (Binary64.exp x).narrow
  | v => v.toBinary64.map Binary64.exp

def degree (g : Gaussian) (x : Value) : Except Mishap Binary64 := do
  let z ← Value.slope x (.float g.mu) (.float g.sigma)
  let half : Value := .float (-(Binary64.ofQuotient 1 2))
  exponential (← (← half.mul z).mul z)

end Gaussian

/-- A shaped membership function. -/
inductive Shape where
  | triangle (t : Triangle)
  | trapezoid (t : Trapezoid)
  | gaussian (g : Gaussian)

namespace Shape

def kind : Shape → ShapeKind
  | triangle _ => .triangular
  | trapezoid _ => .trapezoidal
  | gaussian _ => .gaussian

def parameters : Shape → List Binary64
  | triangle t => t.parameters
  | trapezoid t => t.parameters
  | gaussian g => g.parameters

def degree : Shape → Value → Except Mishap Binary64
  | triangle t => t.degree
  | trapezoid t => t.degree
  | gaussian g => g.degree

def call (s : Shape) (x : Value) : Except Fault Degree :=
  match s.degree x with
  | .ok y => Degree.ofNumber y
  | .error m => .error (.mishap m)

def assignments (names : List String) (values : List Binary64) : String :=
  ", ".intercalate ((names.zip values).map fun (name, value) => name ++ "=" ++ value.render)

def className (s : Shape) : String := s.kind.title ++ "MF"

def display (s : Shape) : String :=
  s.className ++ "(" ++ assignments s.kind.parameterNames s.parameters ++ ")"

/-! ### Building shapes -/

/-- The shape of parameters in the right number, if they are in order. -/
def ofParameters? : ShapeKind → List Binary64 → Except Failure Shape
  | .triangular, [a, b, c] =>
    if h : a ≤ b ∧ b ≤ c then .ok (triangle ⟨a, b, c, h.1, h.2⟩)
    else .error (.parameterOrder .triangular [a, b, c])
  | .trapezoidal, [a, b, c, d] =>
    if h : a ≤ b ∧ b ≤ c ∧ c ≤ d then .ok (trapezoid ⟨a, b, c, d, h.1, h.2.1, h.2.2⟩)
    else .error (.parameterOrder .trapezoidal [a, b, c, d])
  | .gaussian, [mu, sigma] =>
    if h : sigma ≤ 0 then .error (.invalidSigma sigma) else .ok (gaussian ⟨mu, sigma, h⟩)
  | kind, parameters => .error (.parameterCount kind parameters.length)

def rejection : Failure → String
  | .parameterCount kind actual =>
    "Invalid " ++ kind.label ++ " MF parameters: expected " ++ toString kind.parameterCount
      ++ ", got " ++ toString actual
  | .parameterOrder kind parameters =>
    "Invalid " ++ kind.label ++ " MF parameter order: "
      ++ assignments kind.parameterNames parameters
  | .invalidSigma sigma => "Invalid Gaussian MF sigma: " ++ sigma.render ++ " (must be > 0)"
  | f => f.message

/-- The items of a value that has a length: characters of a text, keys of a dictionary. -/
def items : Value → Except Mishap (List Value)
  | .list items => .ok items
  | .tuple items => .ok items
  | .text s => .ok (s.toList.map fun c => .text (String.ofList [c]))
  | .dict entries => .ok (entries.map Prod.fst)
  | _ => .error .wrongType

/-- The shape of a kind from parameter values: their number is checked first, then each has to be a
number, and then they have to be in order. -/
def ofValues (kind : ShapeKind) (parameters : Value) : Traced Shape := do
  let values ← .ofMishap (items parameters)
  if values.length = kind.parameterCount then
    let numbers ← .ofMishap (values.mapM Value.toBinary64)
    settle (ofParameters? kind numbers)
  else
    settle (.error (.parameterCount kind values.length))
where
  /-- Logs a rejection. -/
  settle : Except Failure Shape → Traced Shape
    | .ok shape => pure shape
    | .error f => .failWith .error Channel.membership (rejection f) f

def create (type parameters : Value) : Traced Shape :=
  match type with
  | .text name =>
    match ShapeKind.ofLabel? (Text.lower name) with
    | some kind => ofValues kind parameters
    | none =>
      .failWith .error Channel.membership ("Unknown membership function type: " ++ name)
        (.unknownShape name)
  | _ => .mishap .noSuchMember

end Shape

end FuzzyAlgebra

import FuzzyAlgebra.FuzzySet.Basic

/-!
# Frames

A frame binds names to fuzzy sets, in the order in which the names were first bound. A binding
records an element type, by which a later use of the name can be checked. Frames change while they
are on a stack, so each carries a key that stays.
-/

namespace FuzzyAlgebra

/-- A name bound to a fuzzy set. Without an element type it accepts every expected type. -/
structure Binding (τ : Type) where
  name : String
  value : FuzzySet τ
  elementType : Option τ

namespace Binding

variable {τ : Type} [ClassHierarchy τ]

/-- Whether a set over `bound` can be used as a set over `expected`. -/
def fits (bound expected : Option τ) : Bool :=
  match bound, expected with
  | some t, some u => ClassHierarchy.isSubclass t u
  | _, _ => true

/-- Whether the bound set can be used as a set over the expected type. -/
def accepts (b : Binding τ) (expected : TagArgument τ) : Traced Bool := do
  let expected ← validateTag expected "expected_type"
  pure (fits b.elementType expected)

/-- Whether a set bound under any value can be used as a set over a type. A type with parameters
counts as a class above which there is only `object`; other values that are no class cannot be
compared. -/
def fitsUnder (bound : Value) (expected : ElementType) : Except Mishap Bool :=
  match bound with
  | .absent => .ok true
  | .type t => .ok (fits (some t) (some expected))
  | .generic g =>
    if g.hasBases && !expected.isAbstract then .ok (expected = .object) else .error .wrongType
  | _ => .error .wrongType

/-- Whether a set bound under any value can be used as a set over the expected type. -/
def acceptsUnder (bound : Value) (expected : TagArgument ElementType) : Traced Bool := do
  match ← validateTag expected "expected_type" with
  | some t => .ofMishap (fitsUnder bound t)
  | none => pure true

end Binding

/-- A named frame of bindings. -/
structure Frame (τ : Type) where
  key : Nat
  name : String
  bindings : List (Binding τ)

namespace Frame

variable {τ : Type}

def empty (key : Nat) (name : String) : Frame τ := ⟨key, name, []⟩

def size (f : Frame τ) : Nat := f.bindings.length

def names (f : Frame τ) : List String := f.bindings.map Binding.name

def get? (f : Frame τ) (name : String) : Option (Binding τ) :=
  f.bindings.find? fun b => b.name = name

def contains (f : Frame τ) (name : String) : Bool := (f.get? name).isSome

/-- Bindings with a new one: a name that is there keeps its place. -/
def insert (b : Binding τ) : List (Binding τ) → List (Binding τ)
  | [] => [b]
  | c :: rest => if c.name = b.name then b :: rest else c :: insert b rest

def bind (f : Frame τ) (b : Binding τ) : Frame τ := { f with bindings := insert b f.bindings }

end Frame

end FuzzyAlgebra

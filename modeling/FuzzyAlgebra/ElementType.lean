/-!
# Element types

A fuzzy set may carry the type of its elements. All that matters of a type is its name and which
other types it is a subclass of, so the sets are stated over any such hierarchy. `ElementType` is
the hierarchy of the types that values have, with those that programs declare below them.
-/

namespace FuzzyAlgebra

/-- Types with names and a subclass relation. -/
class ClassHierarchy (τ : Type) where
  isSubclass : τ → τ → Bool
  name : τ → String

/-- The subclass relation is a partial order. -/
class LawfulHierarchy (τ : Type) [ClassHierarchy τ] : Prop where
  refl (t : τ) : ClassHierarchy.isSubclass t t = true
  trans (s t u : τ) : ClassHierarchy.isSubclass s t = true → ClassHierarchy.isSubclass t u = true →
    ClassHierarchy.isSubclass s u = true
  antisymm (s t : τ) : ClassHierarchy.isSubclass s t = true → ClassHierarchy.isSubclass t s = true →
    s = t

/-- A type that need not be declared. -/
inductive BuiltinType where
  | int | float | str | bool | tuple | list | dict | object | complex | bytes
  | float64 | real | number
  deriving DecidableEq, Repr

namespace BuiltinType

def all : List BuiltinType :=
  [int, float, str, bool, tuple, list, dict, object, complex, bytes, float64, real, number]

def name : BuiltinType → String
  | int => "int" | float => "float" | str => "str" | bool => "bool" | tuple => "tuple"
  | list => "list" | dict => "dict" | object => "object" | complex => "complex" | bytes => "bytes"
  | float64 => "float64" | real => "Real" | number => "Number"

/-- The module that defines the type, for the types that have to be imported. -/
def home? : BuiltinType → Option String
  | float64 => some "numpy"
  | real => some "numbers"
  | number => some "numbers"
  | _ => none

/-- Whether the type only names what other types have in common. -/
def isAbstract (b : BuiltinType) : Bool := b = real || b = number

/-- The types that a type is a subclass of, itself first, `object` left out. -/
def ancestors : BuiltinType → List BuiltinType
  | bool => [bool, int, real, number]
  | int => [int, real, number]
  | float64 => [float64, float, real, number]
  | float => [float, real, number]
  | real => [real, number]
  | complex => [complex, number]
  | b => [b]

end BuiltinType

/-- A type of elements. A program declares a type under a name in a module, below other types;
declarations of one name are told apart by their keys. -/
inductive ElementType where
  | builtin (b : BuiltinType)
  | declared (key : Nat) (name home : String) (parents : List ElementType)

namespace ElementType

/-! ### Equality -/

mutual

def decideEq : (t u : ElementType) → Decidable (t = u)
  | builtin b, builtin c => decidable_of_iff (b = c) (by simp)
  | builtin _, declared .. => isFalse nofun
  | declared .., builtin _ => isFalse nofun
  | declared key name home parents, declared key' name' home' parents' =>
    have : Decidable (parents = parents') := decideEqAll parents parents'
    decidable_of_iff (key = key' ∧ name = name' ∧ home = home' ∧ parents = parents') (by simp)

def decideEqAll : (ts us : List ElementType) → Decidable (ts = us)
  | [], [] => isTrue rfl
  | [], _ :: _ => isFalse nofun
  | _ :: _, [] => isFalse nofun
  | t :: ts, u :: us =>
    have : Decidable (t = u) := decideEq t u
    have : Decidable (ts = us) := decideEqAll ts us
    decidable_of_iff (t = u ∧ ts = us) (by simp)

end

instance : DecidableEq ElementType := decideEq

/-! ### Subclasses -/

abbrev float : ElementType := builtin .float

abbrev object : ElementType := builtin .object

/-- The name that messages use. -/
def name : ElementType → String
  | builtin b => b.name
  | declared _ name _ _ => name

def home? : ElementType → Option String
  | builtin b => b.home?
  | declared _ _ home _ => some home

def display (t : ElementType) : String :=
  let qualified := match t.home? with
    | some home => home ++ "." ++ t.name
    | none => t.name
  "<class '" ++ qualified ++ "'>"

def isAbstract : ElementType → Bool
  | builtin b => b.isAbstract
  | declared .. => false

mutual

/-- The types that a type is a subclass of, itself first, `object` left out. -/
def ancestors : ElementType → List ElementType
  | builtin b => b.ancestors.map builtin
  | declared key name home parents => declared key name home parents :: ancestorsOfAll parents

def ancestorsOfAll : List ElementType → List ElementType
  | [] => []
  | t :: ts => ancestors t ++ ancestorsOfAll ts

end

/-- A type is a subclass of itself, of every type above it, and of `object`. -/
def isSubclass (t u : ElementType) : Bool := u = object || t.ancestors.contains u

instance : ClassHierarchy ElementType := ⟨isSubclass, name⟩

end ElementType

/-- What a type expression can be used for. -/
inductive GenericForm where
  /-- It stands for a type: calling it calls that type, and it names the types above that one. -/
  | alias (origin : BuiltinType)
  /-- It counts as a function, but fails when it is called. -/
  | callable
  | inert
  deriving DecidableEq, Repr

/-- A type expression with parameters. It is not a class, so no element type can be one. -/
structure GenericType where
  display : String
  /-- The name of the type that the expression has as a value. -/
  kindName : String
  form : GenericForm
  deriving DecidableEq, Repr

namespace GenericType

/-- Whether the expression names superclasses, as those of sequences and dictionaries do. -/
def hasBases (t : GenericType) : Bool :=
  match t.form with
  | .alias _ => true
  | _ => false

end GenericType

end FuzzyAlgebra

import FuzzyAlgebra.Shape
import FuzzyAlgebra.Value.Conversion

/-!
# Membership functions

A membership function maps an element to a value, which is checked to be a degree only afterwards.
It may fail in a way of its own. The catalogue holds the functions that programs can name.
-/

namespace FuzzyAlgebra

/-- A function from elements to degrees. -/
structure MembershipFunction where
  /-- How the function is written. -/
  display : String
  /-- Whether its calls are counted. -/
  counted : Bool
  apply : Value → Except Fault Value

namespace MembershipFunction

def ofName (name : String) (apply : Value → Except Fault Value) : MembershipFunction :=
  ⟨"<fn " ++ name ++ ">", true, apply⟩

def ofMishap {α : Type} : Except Mishap α → Except Fault α
  | .ok a => .ok a
  | .error m => .error (.mishap m)

def const (v : Value) : MembershipFunction := ofName "const" fun _ => .ok v

def identity : MembershipFunction := ofName "identity" .ok

def add (v : Value) : MembershipFunction := ofName "add" fun x => ofMishap (x.add v)

def scale (v : Value) : MembershipFunction := ofName "scale" fun x => ofMishap (x.mul v)

def clip : MembershipFunction := ofName "clip" fun x => ofMishap do
  let raised ← Value.maximum (.float 0) x
  Value.minimum (.float 1) raised

def crisp (b : Bool) : Value := .float (if b then 1 else 0)

def above (v : Value) : MembershipFunction :=
  ofName "above" fun x => ofMishap ((x.gt v).map crisp)

def below (v : Value) : MembershipFunction :=
  ofName "below" fun x => ofMishap ((x.lt v).map crisp)

/-- A table looked up by the way the element is written; of two entries for it the last counts. -/
def table (entries : List (Value × Value)) : MembershipFunction :=
  ofName "table" fun x =>
    match entries.reverse.find? fun (key, _) => key.sameNotation x with
    | some (_, v) => .ok v
    | none => .error (.mishap .missingKey)

def raising (name : String) (message : Value) : MembershipFunction :=
  ofName "raise" fun _ => .error (.named name message)

def ofShape (s : Shape) : MembershipFunction :=
  ⟨s.display, false, fun x => (s.call x).map .degree⟩

def ofType (t : ElementType) : MembershipFunction :=
  ⟨t.display, false, fun x => ofMishap (t.convert x)⟩

def ofGeneric (t : GenericType) : MembershipFunction :=
  ⟨t.display, false, fun x => ofMishap (t.convert x)⟩

end MembershipFunction

end FuzzyAlgebra

import FuzzyAlgebra.Value.Slots
import FuzzyAlgebra.Yaml.Node
import FuzzyAlgebra.Yaml.Number

/-!
# Entries of mappings

A key that comes again takes the place of the first one. Most keys are the same when their values
are. What is no number is the same as itself only, but all words for it name one such value. Moments
are one key when they are the same in universal time.
-/

namespace FuzzyAlgebra.Yaml

/-- What makes a key the same as another one. -/
inductive Identity where
  | value (v : Value)
  /-- No number: the one that the words name, or that of a node. -/
  | nan (node : Option Nat)
  | instant (micros : Int)

namespace Identity

/-- The identity of the key that a scalar node of this value is. -/
def ofScalar (number : Nat) (tag : Tag) (text : String) (v : Value) : Identity :=
  match tag, v with
  | .float, .float x =>
    if x.isNaN then nan (if writesNaN text then none else some number) else value v
  | .timestamp, _ =>
    match (Timestamp.read? (Tag.dropLastLineFeed text.toList)).bind Timestamp.instant? with
    | some micros => instant micros
    | none => value v
  | _, _ => value v

def same : Identity → Identity → Bool
  | value v, value w => v.sameKey w
  | nan m, nan n => m = n
  | instant m, instant n => m = n
  | _, _ => false

end Identity

/-- A key and the number of the node that is its value. -/
structure Entry where
  identity : Identity
  key : Value
  node : Nat

namespace Entry

/-- Entries with a new one: a key that is there keeps its place and takes the new value. -/
def insert (e : Entry) : List Entry → List Entry
  | [] => [e]
  | f :: rest =>
    if f.identity.same e.identity then { f with node := e.node } :: rest else f :: insert e rest

def distinct (entries : List Entry) : List Entry :=
  entries.foldl (fun acc e => insert e acc) []

end Entry

end FuzzyAlgebra.Yaml

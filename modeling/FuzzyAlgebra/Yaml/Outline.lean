import FuzzyAlgebra.Text.SixBits
import FuzzyAlgebra.Yaml.Cursor
import FuzzyAlgebra.Yaml.Entry

/-!
# Outlines of nodes

What a node is, apart from the values of its parts: a scalar has its value, and a collection the
numbers of its parts.
-/

namespace FuzzyAlgebra.Yaml

inductive Outline where
  | scalar (identity : Identity) (value : Value)
  | list (items : List Nat)
  | pairs (items : Entries)
  | dictionary (entries : List Entry)
  | keys (entries : List Entry)

/-! ### Scalars -/

def truthOf (text : String) : Except Mishap Value :=
  let word := Text.lower text
  if ["yes", "true", "on"].contains word then .ok (.bool true)
  else if ["no", "false", "off"].contains word then .ok (.bool false)
  else .error .missingKey

def timestampOf (text : String) : Except Mishap Value :=
  match Timestamp.read? (Tag.dropLastLineFeed text.toList) with
  | some t => t.toValue
  | none => .error .noSuchMember

def bytesOf (text : String) : Except Problem Value :=
  match Text.SixBits.decode? text.toList with
  | some content => .ok (.bytes content)
  | none => .error .malformed

def lift (r : Except Mishap Value) : Except Problem Value := r.mapError .mishap

def scalarOf (tag : Tag) (text : String) : Except Problem Value :=
  match tag with
  | .null => .ok .absent
  | .bool => lift (truthOf text)
  | .int => lift ((intOf text).map .int)
  | .float => lift ((floatOf text).map .float)
  | .binary => bytesOf text
  | .timestamp => lift (timestampOf text)
  | .text => .ok (.text text)
  | _ => .error .malformed

namespace Node

/-- The text that a node stands for: its own, or that of the value it holds under the key for such
a value. `fuel` bounds how deep that value is. -/
def scalarText? (nodes : Array Node) : Nat → Node → Option String
  | 0, _ => none
  | _, scalar _ text => some text
  | _, sequence .. => none
  | fuel + 1, mapping _ entries =>
    match entries.find? fun (k, _) => nodes[k]!.tag = .value with
    | some (_, v) => scalarText? nodes fuel nodes[v]!
    | none => none

end Node

/-- The outline of a scalar. A moment has to be a scalar itself. -/
def Outline.ofScalar (nodes : Array Node) (number : Nat) : Except Problem Outline :=
  let node := nodes[number]!
  match node.scalarText? nodes (nodes.size + 1), node.tag, node with
  | none, _, _ => .error .malformed
  | some _, .timestamp, .mapping .. => .error (.mishap .wrongType)
  | some text, tag, _ => do
    let v ← scalarOf tag text
    pure (.scalar (.ofScalar number tag text v) v)

/-! ### Values -/

namespace Outline

def value (values : Array Value) : Outline → Value
  | scalar _ v => v
  | list items => .list (items.map fun n => values[n]!)
  | pairs items => .list (items.map fun (k, v) => .tuple [values[k]!, values[v]!])
  | dictionary entries => .dict (entries.map fun e => (e.key, values[e.node]!))
  | keys entries => .setOf (entries.map Entry.key)

end Outline

end FuzzyAlgebra.Yaml

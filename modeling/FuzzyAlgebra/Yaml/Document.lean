import FuzzyAlgebra.Yaml.Building
import FuzzyAlgebra.Yaml.Node.Reader

/-!
# From documents to values

The values of nodes are put together in the order in which the nodes end. A node that stands inside
itself is empty at first, and every further round puts into it what the round before has made.
-/

namespace FuzzyAlgebra.Yaml

namespace Document

def assemble (d : Document) (outlines : Array (Option Outline)) (values : Array Value) :
    Array Value :=
  d.ended.foldl (fun values n =>
    match outlines[n]! with
    | some outline => values.setIfInBounds n (outline.value values)
    | none => values) values

/-- How many rounds there are: no reader looks deeper into a node that stands inside itself. -/
def rounds : Nat := 5

def toValue (d : Document) : Except Problem Value := do
  let outlines ← d.outlines
  let empty := Array.replicate d.nodes.size (Value.list [])
  let values := (List.range rounds).foldl (fun values _ => d.assemble outlines values) empty
  pure values[d.root]!

end Document

/-- The value of a text; a text without a document has none. -/
def read (bytes : ByteArray) : Except Problem Value := do
  match ← Document.ofTokens (Token.ofSource (Source.ofBytes bytes.toList)) with
  | some document => document.toValue
  | none => pure .absent

end FuzzyAlgebra.Yaml

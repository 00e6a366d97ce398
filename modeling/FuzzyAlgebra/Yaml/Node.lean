import FuzzyAlgebra.Yaml.Tag

/-!
# Nodes of YAML documents

What the structure of a text says: scalars, sequences and mappings with their tags. Nodes are
numbered in the order in which they begin, and hold the numbers of their parts, since a node that
was given a name can stand in several places, even inside itself.
-/

namespace FuzzyAlgebra.Yaml

abbrev Entries : Type := List (Nat × Nat)

inductive Node where
  | scalar (tag : Tag) (text : String)
  | sequence (tag : Tag) (items : List Nat)
  | mapping (tag : Tag) (entries : Entries)

namespace Node

instance : Inhabited Node := ⟨scalar .null ""⟩

def tag : Node → Tag
  | scalar tag _ => tag
  | sequence tag _ => tag
  | mapping tag _ => tag

def withTag (tag : Tag) : Node → Node
  | scalar _ text => scalar tag text
  | sequence _ items => sequence tag items
  | mapping _ entries => mapping tag entries

def entryCount : Node → Nat
  | mapping _ entries => entries.length
  | _ => 0

end Node

/-- The nodes of a document. -/
structure Document where
  nodes : Array Node
  /-- The numbers of the nodes in the order in which they end: a node comes after its parts, unless
  it is inside one of them. -/
  ended : Array Nat
  root : Nat

end FuzzyAlgebra.Yaml

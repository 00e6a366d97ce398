import FuzzyAlgebra.Yaml.Outline

/-!
# From nodes to outlines

Every tag has its own way to make a value. A collection is looked into only after all collections
that were met before it, so that of two faults the one nearer to the root is found first, and on one
level the one nearer to the start of the text.
-/

namespace FuzzyAlgebra.Yaml

/-- The nodes as they are by now, and what is known about them. -/
structure Building where
  nodes : Array Node
  outlines : Array (Option Outline)
  /-- The collections that were met and not looked into, the last one first. -/
  waiting : List Nat

abbrev Builder (α : Type) : Type := StateT Building (Except Problem) α

namespace Builder

def fail {α : Type} : Builder α := throw .malformed

def node (number : Nat) : Builder Node := do pure (← get).nodes[number]!

def setNode (number : Nat) (node : Node) : Builder Unit :=
  modify fun s => { s with nodes := s.nodes.setIfInBounds number node }

def setOutline (number : Nat) (outline : Outline) : Builder Unit :=
  modify fun s => { s with outlines := s.outlines.setIfInBounds number (some outline) }

def items (number : Nat) : Builder (List Nat) := do
  match ← node number with
  | .sequence _ items => pure items
  | _ => fail

def entries (number : Nat) : Builder Entries := do
  match ← node number with
  | .mapping _ entries => pure entries
  | _ => fail

/-! ### Merging -/

/-- The first entry that marks what is merged: its value, and the other entries. -/
def takeMerge? (nodes : Array Node) : Entries → Option (Nat × Entries)
  | [] => none
  | (k, v) :: rest =>
    if nodes[k]!.tag = .merge then some (v, rest)
    else (takeMerge? nodes rest).map fun (source, others) => (source, (k, v) :: others)

/-- A key that marks the value of a mapping is text like any other from now on. -/
def settleKey (number : Nat) : Builder Unit := do
  let key ← node number
  if key.tag = .value then setNode number (key.withTag .text)

/-- The mappings that a node names for merging, and whether the last one comes first. -/
def sources (number : Nat) : Builder (List Nat × Bool) := do
  match ← node number with
  | .mapping .. => pure ([number], false)
  | .sequence _ items => pure (items, true)
  | .scalar .. => fail

/-- Puts the entries that are merged into a mapping before its own. Each round takes one mark away;
`fuel` is greater than their number. -/
def mergeInto (number : Nat) (merged : Entries) : Nat → Builder Unit
  | 0 => fail
  | fuel + 1 => do
    let own ← entries number
    let tag := (← node number).tag
    match takeMerge? (← get).nodes own with
    | none => do
      own.forM fun (k, _) => settleKey k
      setNode number (.mapping tag (merged ++ own))
    | some (source, others) => do
      setNode number (.mapping tag others)
      let (mappings, reversed) ← sources source
      let found ← mappings.mapM fun m => do
        mergeInto m [] fuel
        entries m
      mergeInto number (merged ++ (if reversed then found.reverse else found).flatten) fuel

/-! ### Outlines -/

def make (number : Nat) : Builder Outline := do
  let s ← get
  match s.outlines[number]! with
  | some outline => pure outline
  | none =>
    if s.nodes[number]!.tag.isCollection then do
      modify fun s => { s with waiting := number :: s.waiting }
      setOutline number (.list [])
      pure (.list [])
    else do
      let outline ← Outline.ofScalar s.nodes number
      setOutline number outline
      pure outline

/-- The entries of a mapping, whose keys have to be scalars. -/
def makeEntries (number fuel : Nat) : Builder (List Entry) := do
  let _ ← entries number
  mergeInto number [] fuel
  let made ← (← entries number).mapM fun (k, v) => do
    match ← make k with
    | .scalar identity key => do
      let _ ← make v
      pure ⟨identity, key, v⟩
    | _ => fail
  pure (Entry.distinct made)

/-- The pairs of a sequence of mappings with one entry each. -/
def makePairs (number : Nat) : Builder Entries := do
  (← items number).mapM fun n => do
    match ← entries n with
    | [(k, v)] => do
      let _ ← make k
      let _ ← make v
      pure (k, v)
    | _ => fail

def fill (fuel number : Nat) : Builder Unit := do
  let outline ← match (← node number).tag with
    | .sequence => do
      let items ← items number
      items.forM fun n => discard (make n)
      pure (.list items)
    | .set => .keys <$> makeEntries number fuel
    | .pairs => .pairs <$> makePairs number
    | .orderedMap => .pairs <$> makePairs number
    | _ => .dictionary <$> makeEntries number fuel
  setOutline number outline

/-- Looks into all collections that wait, and then into those that were met there. -/
def fillAll (fuel : Nat) : Nat → Builder Unit
  | 0 => pure ()
  | rounds + 1 => do
    let waiting := (← get).waiting.reverse
    if waiting.isEmpty then pure ()
    else do
      modify fun s => { s with waiting := [] }
      waiting.forM (fill fuel)
      fillAll fuel rounds

end Builder

def Document.outlines (d : Document) : Except Problem (Array (Option Outline)) := do
  let entries := d.nodes.foldl (fun count n => count + n.entryCount) 0
  let build : Builder Unit := do
    discard (Builder.make d.root)
    Builder.fillAll (entries + 1) (d.nodes.size + 1)
  let (_, s) ← build.run ⟨d.nodes, Array.replicate d.nodes.size none, []⟩
  pure s.outlines

end FuzzyAlgebra.Yaml

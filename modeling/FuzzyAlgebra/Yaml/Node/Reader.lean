import FuzzyAlgebra.Yaml.Node
import FuzzyAlgebra.Yaml.Token.Lexer

/-!
# From tokens to nodes

A text holds at most one document. A name that a node was given refers to it in all that follows;
inside the node itself it refers to the node around.
-/

namespace FuzzyAlgebra.Yaml

/-- What is left to read, and what has been said so far. -/
structure Reading where
  tokens : List Token
  /-- What the handles of tags stand for. -/
  handles : List (String × String)
  /-- The numbers of the named nodes. -/
  names : List (String × Nat)
  /-- The nodes; one that is still being read is empty here. -/
  nodes : Array Node
  /-- The nodes that have been read. -/
  ended : Array Nat

abbrev NodeReader (α : Type) : Type := StateT Reading (Except Problem) α

namespace NodeReader

def fail {α : Type} : NodeReader α := throw .malformed

def peek : NodeReader Token := do
  match (← get).tokens with
  | .broken p :: _ => throw p
  | t :: _ => pure t
  | [] => pure .streamEnd

def skip : NodeReader Unit := modify fun s => { s with tokens := s.tokens.drop 1 }

/-! ### Properties -/

abbrev WrittenTag : Type := Option String × String

def tagName (tag : WrittenTag) : NodeReader String := do
  match tag with
  | (none, suffix) => pure suffix
  | (some handle, suffix) =>
    match (← get).handles.find? fun (h, _) => h = handle with
    | some (_, expansion) => pure (expansion ++ suffix)
    | none => fail

def readTag : NodeReader (Option WrittenTag) := do
  match ← peek with
  | .tag handle suffix => do
    skip
    pure (some (handle, suffix))
  | _ => pure none

def readName : NodeReader (Option String) := do
  match ← peek with
  | .anchor name => do
    skip
    pure (some name)
  | _ => pure none

/-- The name and the tag of a node, in any order. The handle of the tag is looked up after both. -/
def readProperties : NodeReader (Option String × Option String) := do
  match ← peek with
  | .anchor _ => do
    let name ← readName
    let tag ← readTag
    pure (name, ← tag.mapM tagName)
  | _ =>
    match ← readTag with
    | some tag => do
      let name ← readName
      pure (name, some (← tagName tag))
    | none => pure (none, none)

def openTag : String := "!"

def collectionTag (usual : Tag) (tag : Option String) : Tag :=
  match tag with
  | none => usual
  | some name => if name = openTag then usual else .ofName name

/-- The tag of a scalar: without one, only a plain scalar can be anything but text. -/
def scalarTag (tag : Option String) (plain : Bool) (text : String) : Tag :=
  match tag with
  | none => if plain then .ofPlain text else .text
  | some name => if name = openTag then .ofPlain text else .ofName name

/-! ### Numbers of nodes -/

def lookUp (name : String) : NodeReader Nat := do
  match (← get).names.find? fun (n, _) => n = name with
  | some (_, number) => pure number
  | none => fail

def beginNode : NodeReader Nat := do
  let number := (← get).nodes.size
  modify fun s => { s with nodes := s.nodes.push default }
  pure number

def giveName (name : String) (number : Nat) : NodeReader Unit := do
  let _ ← peek
  if (← get).names.any fun (n, _) => n = name then fail
  else modify fun s => { s with names := (name, number) :: s.names }

def endNode (number : Nat) (node : Node) : NodeReader Nat := do
  modify fun s =>
    { s with nodes := s.nodes.setIfInBounds number node, ended := s.ended.push number }
  pure number

def numbered (read : NodeReader Node) : NodeReader Nat := do
  let number ← beginNode
  endNode number (← read)

def emptyNode : NodeReader Nat := numbered (pure (.scalar .null ""))

/-! ### Nodes -/

def skipComma (first : Bool) : NodeReader Unit := do
  if first then pure ()
  else
    match ← peek with
    | .flowEntry => skip
    | _ => fail

mutual

/-- A node. Inside brackets no block can begin; a sequence that is not indented can be the key or
the value of a block mapping only. -/
def readNode (block indentless : Bool) : Nat → NodeReader Nat
  | 0 => fail
  | fuel + 1 => do
    match ← peek with
    | .alias name => do
      skip
      lookUp name
    | _ => do
      let (name, tag) ← readProperties
      let number ← beginNode
      name.forM (giveName · number)
      endNode number (← readContent block indentless (name.isSome || tag.isSome) tag fuel)

def readContent (block indentless marked : Bool) (tag : Option String) : Nat → NodeReader Node
  | 0 => fail
  | fuel + 1 => do
    match ← peek, block, indentless with
    | .scalar text plain, _, _ => do
      skip
      pure (.scalar (scalarTag tag plain text) text)
    | .flowSequenceStart, _, _ => do
      skip
      .sequence (collectionTag .sequence tag) <$> readFlowItems true fuel
    | .flowMappingStart, _, _ => do
      skip
      .mapping (collectionTag .mapping tag) <$> readFlowEntries true fuel
    | .blockEntry, _, true => .sequence (collectionTag .sequence tag) <$> readLooseItems fuel
    | .blockSequenceStart, true, _ => do
      skip
      .sequence (collectionTag .sequence tag) <$> readItems fuel
    | .blockMappingStart, true, _ => do
      skip
      .mapping (collectionTag .mapping tag) <$> readEntries fuel
    | _, _, _ => if marked then pure (.scalar (scalarTag tag true "") "") else fail

def readItems : Nat → NodeReader (List Nat)
  | 0 => fail
  | fuel + 1 => do
    match ← peek with
    | .blockEnd => do
      skip
      pure []
    | .blockEntry => do
      skip
      let item ← match ← peek with
        | .blockEntry => emptyNode
        | .blockEnd => emptyNode
        | _ => readNode true false fuel
      (item :: ·) <$> readItems fuel
    | _ => fail

/-- The items of a sequence that is not indented; it ends where no item follows. -/
def readLooseItems : Nat → NodeReader (List Nat)
  | 0 => fail
  | fuel + 1 => do
    match ← peek with
    | .blockEntry => do
      skip
      let item ← match ← peek with
        | .blockEntry => emptyNode
        | .key => emptyNode
        | .value => emptyNode
        | .blockEnd => emptyNode
        | _ => readNode true false fuel
      (item :: ·) <$> readLooseItems fuel
    | _ => pure []

def readPart : Nat → NodeReader Nat
  | 0 => fail
  | fuel + 1 => do
    match ← peek with
    | .key => emptyNode
    | .value => emptyNode
    | .blockEnd => emptyNode
    | _ => readNode true true fuel

def readEntries : Nat → NodeReader Entries
  | 0 => fail
  | fuel + 1 => do
    match ← peek with
    | .blockEnd => do
      skip
      pure []
    | .key => do
      skip
      let key ← readPart fuel
      let value ← match ← peek with
        | .value => do
          skip
          readPart fuel
        | _ => emptyNode
      ((key, value) :: ·) <$> readEntries fuel
    | _ => fail

def readFlowPart : Nat → NodeReader Nat
  | 0 => fail
  | fuel + 1 => do
    match ← peek with
    | .value => emptyNode
    | .flowEntry => emptyNode
    | .flowSequenceEnd => emptyNode
    | .flowMappingEnd => emptyNode
    | _ => readNode false false fuel

/-- A key and its value inside brackets, after the mark of the key. -/
def readFlowPair : Nat → NodeReader (Nat × Nat)
  | 0 => fail
  | fuel + 1 => do
    let key ← readFlowPart fuel
    match ← peek with
    | .value => do
      skip
      match ← peek with
      | .value => fail
      | _ => pure (key, ← readFlowPart fuel)
    | _ => pure (key, ← emptyNode)

/-- The items of a sequence in brackets; a key among them is a mapping of its own. -/
def readFlowItems (first : Bool) : Nat → NodeReader (List Nat)
  | 0 => fail
  | fuel + 1 => do
    match ← peek with
    | .flowSequenceEnd => do
      skip
      pure []
    | _ => do
      skipComma first
      match ← peek with
      | .flowSequenceEnd => do
        skip
        pure []
      | .key => do
        skip
        let item ← numbered ((.mapping .mapping [·]) <$> readFlowPair fuel)
        (item :: ·) <$> readFlowItems false fuel
      | _ => do
        let item ← readNode false false fuel
        (item :: ·) <$> readFlowItems false fuel

/-- The entries of a mapping in braces; a node that is not marked as a key has an empty value. -/
def readFlowEntries (first : Bool) : Nat → NodeReader Entries
  | 0 => fail
  | fuel + 1 => do
    match ← peek with
    | .flowMappingEnd => do
      skip
      pure []
    | _ => do
      skipComma first
      match ← peek with
      | .flowMappingEnd => do
        skip
        pure []
      | .key => do
        skip
        let pair ← readFlowPair fuel
        (pair :: ·) <$> readFlowEntries false fuel
      | _ => do
        let key ← readNode false false fuel
        let value ← emptyNode
        ((key, value) :: ·) <$> readFlowEntries false fuel

end

/-! ### Documents -/

def usualHandles : List (String × String) := [("!", "!"), ("!!", Tag.standard)]

/-- What a document says about itself. No directive may come twice, and only the first version of
the format is known. -/
def readDirectives (versionSeen : Bool) : Nat → NodeReader Unit
  | 0 => fail
  | fuel + 1 => do
    match ← peek with
    | .versionDirective major _ =>
      if versionSeen || major ≠ 1 then fail
      else do
        skip
        readDirectives true fuel
    | .tagDirective handle expansion => do
      if (← get).handles.any fun (h, _) => h = handle then fail
      else
        skip
        modify fun s => { s with handles := s.handles ++ [(handle, expansion)] }
        readDirectives versionSeen fuel
    | .otherDirective => do
      skip
      readDirectives versionSeen fuel
    | _ => modify fun s => { s with handles := s.handles ++ usualHandles }

def readHead (fuel : Nat) : NodeReader Unit := do
  readDirectives false fuel
  match ← peek with
  | .documentStart => skip
  | _ => fail

/-- The node of a document, which can be left out after the mark. -/
def readMarked (fuel : Nat) : NodeReader Nat := do
  readHead fuel
  match ← peek with
  | .versionDirective .. => emptyNode
  | .tagDirective .. => emptyNode
  | .otherDirective => emptyNode
  | .documentStart => emptyNode
  | .documentEnd => emptyNode
  | .streamEnd => emptyNode
  | _ => readNode true false fuel

def readRest : Nat → NodeReader Unit
  | 0 => fail
  | fuel + 1 => do
    match ← peek with
    | .documentEnd => do
      skip
      readRest fuel
    | .streamEnd => pure ()
    | _ => do
      modify fun s => { s with handles := [] }
      readHead fuel
      fail

def readDocument (fuel : Nat) : NodeReader (Option Nat) := do
  match ← peek with
  | .streamEnd => pure none
  | .versionDirective .. => some <$> marked
  | .tagDirective .. => some <$> marked
  | .otherDirective => some <$> marked
  | .documentStart => some <$> marked
  | _ => do
    modify fun s => { s with handles := usualHandles }
    let root ← readNode true false fuel
    readRest fuel
    pure (some root)
where
  marked : NodeReader Nat := do
    let root ← readMarked fuel
    readRest fuel
    pure root

end NodeReader

def Document.ofTokens (tokens : List Token) : Except Problem (Option Document) := do
  let start : Reading := ⟨tokens, [], [], #[], #[]⟩
  let (root, s) ← (NodeReader.readDocument (4 * tokens.length + 8)).run start
  pure (root.map fun root => ⟨s.nodes, s.ended, root⟩)

end FuzzyAlgebra.Yaml

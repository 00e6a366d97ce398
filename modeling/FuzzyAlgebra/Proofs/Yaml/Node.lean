import FuzzyAlgebra.Proofs.Yaml.Token
import FuzzyAlgebra.Yaml.Node.Reader

/-!
# Which problems nodes can have

A document that cannot be read is not well formed, or there is a token missing that tells why. No
reader makes tokens up, so what is left to read has no other problems than the text.
-/

namespace FuzzyAlgebra.Yaml

open Lexer (ProblemOf)

/-- Where a token is missing, it tells a problem of the text. -/
def Reading.Told (source : Source) (s : Reading) : Prop :=
  ∀ p, .broken p ∈ s.tokens → ProblemOf source p

namespace NodeReader

variable {source : Source} {α : Type}

/-- The reader fails with problems of the text only, and leaves no others to be found. -/
def Reads (source : Source) (m : NodeReader α) : Prop :=
  Keeps (Reading.Told source) (ProblemOf source) m

@[grind ←]
theorem reads_fail : Reads source (fail : NodeReader α) := keeps_throw (.inl .malformed)

@[grind ←]
theorem reads_pure (a : α) : Reads source (pure a : NodeReader α) := keeps_pure a

@[grind ←]
theorem reads_get : Reads source (get : NodeReader Reading) := keeps_get

/-- What changes no tokens can be done at any time. -/
theorem reads_modify {f : Reading → Reading} (hf : ∀ s, (f s).tokens = s.tokens) :
    Reads source (modify f) :=
  keeps_modify fun s hs p hp => hs p (hf s ▸ hp)

@[grind ←]
theorem Reads.bind {β : Type} {m : NodeReader α} {f : α → NodeReader β} (hm : Reads source m)
    (hf : ∀ a, Reads source (f a)) : Reads source (m >>= f) := Keeps.bind hm hf

@[grind ←]
theorem Reads.map {β : Type} {m : NodeReader α} (hm : Reads source m) (f : α → β) :
    Reads source (f <$> m) := Keeps.map hm f

@[grind ←]
theorem reads_peek : Reads source peek := by
  refine keeps_get_bind fun s hs => ?_
  split
  · next p _ htokens => exact keeps_throw (hs p (htokens ▸ List.mem_cons_self))
  · exact keeps_pure _
  · exact keeps_pure _

@[grind ←]
theorem reads_skip : Reads source skip :=
  keeps_modify fun _ hs p hp => hs p (List.mem_of_mem_drop hp)

/-! ### Properties and numbers -/

@[grind ←]
theorem reads_tagName (tag : WrittenTag) : Reads source (tagName tag) := by
  unfold tagName
  grind

@[grind ←]
theorem reads_readTag : Reads source readTag := by
  unfold readTag
  grind

@[grind ←]
theorem reads_readName : Reads source readName := by
  unfold readName
  grind

@[grind ←]
theorem reads_readProperties : Reads source readProperties := by
  unfold readProperties
  refine reads_peek.bind fun _ => ?_
  split
  · refine reads_readName.bind fun _ => reads_readTag.bind fun tag => ?_
    cases tag with
    | none => exact (reads_pure none).bind fun _ => reads_pure _
    | some tag => exact ((reads_tagName tag).map some).bind fun _ => reads_pure _
  · grind

@[grind ←]
theorem reads_lookUp (name : String) : Reads source (lookUp name) := by
  unfold lookUp
  grind

@[grind ←]
theorem reads_beginNode : Reads source beginNode :=
  reads_get.bind fun _ => Reads.bind (reads_modify fun _ => rfl) fun _ => reads_pure _

@[grind ←]
theorem reads_giveName (name : String) (number : Nat) : Reads source (giveName name number) := by
  unfold giveName
  refine reads_peek.bind fun _ => reads_get.bind fun s => ?_
  split
  · exact reads_fail
  · exact reads_modify fun _ => rfl

@[grind ←]
theorem reads_endNode (number : Nat) (node : Node) : Reads source (endNode number node) :=
  Reads.bind (reads_modify fun _ => rfl) fun _ => reads_pure _

theorem Reads.numbered {read : NodeReader Node} (h : Reads source read) :
    Reads source (numbered read) :=
  reads_beginNode.bind fun _ => h.bind fun _ => reads_endNode _ _

@[grind ←]
theorem reads_emptyNode : Reads source emptyNode := (reads_pure _).numbered

@[grind ←]
theorem reads_skipComma (first : Bool) : Reads source (skipComma first) := by
  unfold skipComma
  grind

/-! ### Nodes -/

/-- All readers of nodes and their parts do so with as much fuel. -/
structure ReadsNodes (source : Source) (fuel : Nat) : Prop where
  node (block indentless : Bool) : Reads source (readNode block indentless fuel)
  content (block indentless marked : Bool) (tag : Option String) :
    Reads source (readContent block indentless marked tag fuel)
  items : Reads source (readItems fuel)
  looseItems : Reads source (readLooseItems fuel)
  part : Reads source (readPart fuel)
  entries : Reads source (readEntries fuel)
  flowPart : Reads source (readFlowPart fuel)
  flowPair : Reads source (readFlowPair fuel)
  flowItems (first : Bool) : Reads source (readFlowItems first fuel)
  flowEntries (first : Bool) : Reads source (readFlowEntries first fuel)

namespace ReadsNodes

variable {fuel : Nat}

theorem readNode (h : ReadsNodes source fuel) (block indentless : Bool) :
    Reads source (readNode block indentless (fuel + 1)) := by
  unfold NodeReader.readNode
  refine reads_peek.bind fun _ => ?_
  split
  · exact reads_skip.bind fun _ => reads_lookUp _
  · refine reads_readProperties.bind fun ⟨name, tag⟩ => reads_beginNode.bind fun number => ?_
    have hname : Reads source (name.forM fun name => giveName name number) := by
      cases name with
      | none => exact reads_pure _
      | some name => exact reads_giveName name number
    exact hname.bind fun _ => (h.content _ _ _ _).bind fun _ => reads_endNode _ _

theorem readContent (h : ReadsNodes source fuel) (block indentless marked : Bool)
    (tag : Option String) :
    Reads source (readContent block indentless marked tag (fuel + 1)) := by
  unfold NodeReader.readContent
  refine reads_peek.bind fun _ => ?_
  split
  · exact reads_skip.bind fun _ => reads_pure _
  · exact reads_skip.bind fun _ => (h.flowItems _).map _
  · exact reads_skip.bind fun _ => (h.flowEntries _).map _
  · exact h.looseItems.map _
  · exact reads_skip.bind fun _ => h.items.map _
  · exact reads_skip.bind fun _ => h.entries.map _
  · split
    · exact reads_pure _
    · exact reads_fail

theorem readItems (h : ReadsNodes source fuel) : Reads source (readItems (fuel + 1)) := by
  unfold NodeReader.readItems
  refine reads_peek.bind fun _ => ?_
  split
  · exact reads_skip.bind fun _ => reads_pure _
  · refine reads_skip.bind fun _ => reads_peek.bind fun _ => ?_
    grind [h.node, h.items]
  · exact reads_fail

theorem readLooseItems (h : ReadsNodes source fuel) :
    Reads source (readLooseItems (fuel + 1)) := by
  unfold NodeReader.readLooseItems
  refine reads_peek.bind fun _ => ?_
  split
  · refine reads_skip.bind fun _ => reads_peek.bind fun _ => ?_
    grind [h.node, h.looseItems]
  · exact reads_pure _

theorem readPart (h : ReadsNodes source fuel) : Reads source (readPart (fuel + 1)) := by
  unfold NodeReader.readPart
  grind [h.node]

theorem readEntries (h : ReadsNodes source fuel) : Reads source (readEntries (fuel + 1)) := by
  unfold NodeReader.readEntries
  refine reads_peek.bind fun _ => ?_
  split
  · exact reads_skip.bind fun _ => reads_pure _
  · refine reads_skip.bind fun _ => h.part.bind fun key => reads_peek.bind fun _ => ?_
    grind [h.part, h.entries]
  · exact reads_fail

theorem readFlowPart (h : ReadsNodes source fuel) : Reads source (readFlowPart (fuel + 1)) := by
  unfold NodeReader.readFlowPart
  grind [h.node]

theorem readFlowPair (h : ReadsNodes source fuel) : Reads source (readFlowPair (fuel + 1)) := by
  unfold NodeReader.readFlowPair
  refine h.flowPart.bind fun key => reads_peek.bind fun _ => ?_
  grind [h.flowPart]

theorem readFlowItems (h : ReadsNodes source fuel) (first : Bool) :
    Reads source (readFlowItems first (fuel + 1)) := by
  unfold NodeReader.readFlowItems
  refine reads_peek.bind fun _ => ?_
  split
  · exact reads_skip.bind fun _ => reads_pure _
  · refine (reads_skipComma first).bind fun _ => reads_peek.bind fun _ => ?_
    split
    · exact reads_skip.bind fun _ => reads_pure _
    · exact reads_skip.bind fun _ => (h.flowPair.map _).numbered.bind fun _ =>
        (h.flowItems _).map _
    · exact (h.node _ _).bind fun _ => (h.flowItems _).map _

theorem readFlowEntries (h : ReadsNodes source fuel) (first : Bool) :
    Reads source (readFlowEntries first (fuel + 1)) := by
  unfold NodeReader.readFlowEntries
  refine reads_peek.bind fun _ => ?_
  split
  · exact reads_skip.bind fun _ => reads_pure _
  · refine (reads_skipComma first).bind fun _ => reads_peek.bind fun _ => ?_
    split
    · exact reads_skip.bind fun _ => reads_pure _
    · exact reads_skip.bind fun _ => h.flowPair.bind fun _ => (h.flowEntries _).map _
    · exact (h.node _ _).bind fun _ => reads_emptyNode.bind fun _ => (h.flowEntries _).map _

end ReadsNodes

theorem readsNodes (source : Source) (fuel : Nat) : ReadsNodes source fuel := by
  -- the readers call each other with less fuel, so all of them go up at once
  induction fuel with
  | zero => constructor <;> intros <;> exact reads_fail
  | succ fuel ih =>
    exact ⟨ih.readNode, ih.readContent, ih.readItems, ih.readLooseItems, ih.readPart,
      ih.readEntries, ih.readFlowPart, ih.readFlowPair, ih.readFlowItems, ih.readFlowEntries⟩

/-! ### Documents -/

theorem reads_readDirectives (versionSeen : Bool) (fuel : Nat) :
    Reads source (readDirectives versionSeen fuel) := by
  induction fuel generalizing versionSeen with
  | zero => exact reads_fail
  | succ fuel ih =>
    unfold readDirectives
    refine reads_peek.bind fun _ => ?_
    split
    · grind
    · refine reads_get.bind fun _ => ?_
      split
      · exact reads_fail
      · exact reads_skip.bind fun _ => Reads.bind (reads_modify fun _ => rfl) fun _ => ih _
    · grind
    · exact reads_modify fun _ => rfl

@[grind ←]
theorem reads_readHead (fuel : Nat) : Reads source (readHead fuel) := by
  unfold readHead
  refine (reads_readDirectives _ _).bind fun _ => ?_
  grind

@[grind ←]
theorem reads_readMarked (fuel : Nat) : Reads source (readMarked fuel) := by
  unfold readMarked
  grind [(readsNodes source fuel).node]

@[grind ←]
theorem reads_readRest (fuel : Nat) : Reads source (readRest fuel) := by
  induction fuel with
  | zero => exact reads_fail
  | succ fuel ih =>
    unfold readRest
    refine reads_peek.bind fun _ => ?_
    split
    · exact reads_skip.bind fun _ => ih
    · exact reads_pure _
    · exact Reads.bind (reads_modify fun _ => rfl) fun _ =>
        (reads_readHead _).bind fun _ => reads_fail

theorem reads_readDocument (fuel : Nat) : Reads source (readDocument fuel) := by
  have hmarked : Reads source (readDocument.marked fuel) := by
    unfold readDocument.marked
    grind
  unfold readDocument
  refine reads_peek.bind fun _ => ?_
  split
  · exact reads_pure _
  · exact hmarked.map some
  · exact hmarked.map some
  · exact hmarked.map some
  · exact hmarked.map some
  · refine Reads.bind (reads_modify fun _ => rfl) fun _ => ?_
    exact ((readsNodes source fuel).node _ _).bind fun _ => (reads_readRest fuel).bind fun _ =>
      reads_pure _

end NodeReader

theorem Document.within_ofTokens {source : Source} {tokens : List Token}
    (h : ∀ p, .broken p ∈ tokens → ProblemOf source p) :
    Within (ProblemOf source) (Document.ofTokens tokens) := by
  have htold : Reading.Told source ⟨tokens, [], [], #[], #[]⟩ := h
  unfold Document.ofTokens
  exact ((NodeReader.reads_readDocument _).within htold).bind fun _ => within_pure _

end FuzzyAlgebra.Yaml

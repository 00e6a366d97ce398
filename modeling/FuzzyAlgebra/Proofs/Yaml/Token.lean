import FuzzyAlgebra.Proofs.Yaml.Problem
import FuzzyAlgebra.Yaml.Token.Lexer

/-!
# Which problems tokens can have

A token that cannot be read is not well formed, or writes a number that is out of range. Every way
to read one is made of ways to read its parts, and the parts have no other problems. Past a place
where no token can be read there is none, and the fault of the source counts if it shows there.
-/

namespace FuzzyAlgebra.Yaml

namespace Cursor

variable {α : Type}

@[grind ←]
theorem within_refuseAt (c : Cursor) (k : Nat) :
    Within Halt.OfText (c.refuseAt k : Except Halt α) := within_error .malformed

@[grind ←]
theorem within_refuse (c : Cursor) : Within Halt.OfText (c.refuse : Except Halt α) :=
  c.within_refuseAt 0

@[grind ←]
theorem ends_refuse {Q : α → Prop} (c : Cursor) :
    Ends Halt.OfText Q (c.refuse : Except Halt α) := ends_error .malformed

theorem within_mishap (c : Cursor) {m : Mishap} (h : m ∈ scalarMishaps) :
    Within Halt.OfText (c.mishap m : Except Halt α) := within_error (.mishap h)

end Cursor

open Cursor

/-! ### Scalars -/

theorem within_charOf (n : Nat) : Within (· ∈ scalarMishaps) (charOf n) := by
  unfold charOf
  split
  · exact within_ok _
  split
  · exact within_ok _
  split
  · exact within_error (by decide)
  · exact within_error (by decide)

@[grind ←]
theorem within_quotedBreaks (fuel : Nat) (c : Cursor) :
    Within Halt.OfText (quotedBreaks fuel c) := by
  induction fuel generalizing c with
  | zero => exact within_ok _
  | succ fuel ih =>
    unfold quotedBreaks
    grind

@[grind ←]
theorem within_quotedSpace (c : Cursor) : Within Halt.OfText (quotedSpace c) := by
  unfold quotedSpace
  grind

@[grind ←]
theorem within_escape (c : Cursor) : Within Halt.OfText (escape c) := by
  unfold escape
  split
  · exact within_ok _
  · dsimp only
    split
    · exact within_refuseAt _ _
    · split
      · exact within_ok _
      · next m hm => exact within_mishap _ (within_charOf _ m hm)
  · grind

@[grind ←]
theorem within_quotedWord (double : Bool) (fuel : Nat) (c : Cursor) :
    Within Halt.OfText (quotedWord double fuel c) := by
  induction fuel generalizing c with
  | zero => exact within_ok _
  | succ fuel ih =>
    unfold quotedWord
    grind

@[grind ←]
theorem within_quotedFrom (double : Bool) (fuel : Nat) (c : Cursor) :
    Within Halt.OfText (quotedFrom double fuel c) := by
  induction fuel generalizing c with
  | zero => exact c.within_refuse
  | succ fuel ih =>
    unfold quotedFrom
    grind

@[grind ←]
theorem within_quotedScalar (double : Bool) (c : Cursor) :
    Within Halt.OfText (quotedScalar double c) := within_quotedFrom _ _ _

@[grind ←]
theorem within_indentation? (c : Cursor) : Within Halt.OfText (indentation? c) := by
  unfold indentation?
  grind

@[grind ←]
theorem within_blockHead (c : Cursor) : Within Halt.OfText (blockHead c) := by
  unfold blockHead
  grind

@[grind ←]
theorem within_restOfLine (c : Cursor) : Within Halt.OfText (restOfLine c) := by
  unfold restOfLine
  grind

@[grind ←]
theorem within_blockScalar (folded : Bool) (least : Nat) (c : Cursor) :
    Within Halt.OfText (blockScalar folded least c) := by
  unfold blockScalar
  grind

/-! ### Names, tags and directives -/

@[grind ←]
theorem within_anchorName (c : Cursor) : Within Halt.OfText (anchorName c) := by
  unfold anchorName
  grind

@[grind ←]
theorem within_percentBytes (fuel : Nat) (c : Cursor) :
    Within Halt.OfText (percentBytes fuel c) := by
  induction fuel generalizing c with
  | zero => exact within_ok _
  | succ fuel ih =>
    unfold percentBytes
    grind

@[grind ←]
theorem within_tagBodyFrom (fuel : Nat) (c : Cursor) :
    Within Halt.OfText (tagBodyFrom fuel c) := by
  induction fuel generalizing c with
  | zero => exact within_ok _
  | succ fuel ih =>
    unfold tagBodyFrom
    grind

@[grind ←]
theorem within_tagBody (c : Cursor) : Within Halt.OfText (tagBody c) := by
  unfold tagBody
  grind

@[grind ←]
theorem within_tagHandle (c : Cursor) : Within Halt.OfText (tagHandle c) := by
  unfold tagHandle
  grind

@[grind ←]
theorem within_versionNumber (c : Cursor) : Within Halt.OfText (versionNumber c) := by
  unfold versionNumber
  dsimp only
  split
  · exact within_refuse _
  split
  · exact within_mishap _ (by decide)
  · exact within_ok _

/-- A token was read, not the lack of one. -/
def Token.isRead : Token → Bool
  | .broken _ => false
  | _ => true

/-- A token is read, or the text has a problem. -/
def ReadsToken (r : Except Halt (Token × Cursor)) : Prop :=
  Ends Halt.OfText (fun p => p.1.isRead = true) r

theorem readsToken_tagToken (c : Cursor) : ReadsToken (tagToken c) := by
  have hend {r : Except Halt (Token × Cursor)} (h : ReadsToken r) :
      ReadsToken (r >>= fun p =>
        if isBreakOrEnd p.2.peek || p.2.peek = ' ' then pure (p.1, p.2) else p.2.refuse) :=
    h.bind fun _ hp => ends_ite (ends_pure hp) (ends_refuse _)
  have hmarked (handle : String) (c : Cursor) := (within_tagBody c).bind_ends fun body =>
    hend (r := pure (.tag (some handle) body.1, body.2)) (ends_pure rfl)
  unfold tagToken
  dsimp only
  refine ends_ite ((within_tagBody _).bind_ends fun _ => ?_) (ends_ite (hend (ends_pure rfl)) ?_)
  · exact ends_ite (hend (ends_pure rfl)) (hend (ends_refuse _))
  · exact ends_ite ((within_tagHandle _).bind_ends fun _ => hmarked _ _) (hmarked _ _)

@[grind ←]
theorem readsToken_versionDirective (c : Cursor) : ReadsToken (versionDirective c) := by
  unfold ReadsToken versionDirective
  grind [Token.isRead]

@[grind ←]
theorem readsToken_tagDirective (c : Cursor) : ReadsToken (tagDirective c) := by
  unfold ReadsToken tagDirective
  grind [Token.isRead]

theorem readsToken_directiveToken (c : Cursor) : ReadsToken (directiveToken c) := by
  have hend {r : Except Halt (Token × Cursor)} (h : ReadsToken r) :
      ReadsToken (r >>= fun p => restOfLine p.2 >>= fun c => pure (p.1, c)) :=
    h.bind fun p hp => (within_restOfLine _).bind_ends fun c => ends_pure hp
  unfold directiveToken
  dsimp only
  refine ends_ite (ends_refuse _) ?_
  refine ends_ite (hend (readsToken_versionDirective _)) ?_
  exact ends_ite (hend (readsToken_tagDirective _)) (hend (ends_pure rfl))

/-! ### Tokens -/

namespace Lexer

variable {l : Lexer}

/-- All tokens so far were read. -/
def Sound (l : Lexer) : Prop := ∀ t ∈ l.tokens, t.isRead = true

theorem Sound.extract (h : l.Sound) (i j : Nat) :
    ∀ t ∈ l.tokens.extract i j, t.isRead = true := by
  intro t ht
  obtain ⟨k, hk, rfl⟩ := Array.mem_extract_iff_getElem.1 ht
  exact h _ (Array.getElem_mem _)

/-- A reader gets on with tokens that were read, or the text has a problem. -/
def GetsOn (r : Except Halt Lexer) : Prop := Ends Halt.OfText Sound r

theorem Sound.push (h : l.Sound) {t : Token} (ht : t.isRead = true) : (l.push t).Sound := by
  intro t' ht'
  rcases Array.mem_push.1 ht' with hold | rfl
  · exact h t' hold
  · exact ht

theorem Sound.take (h : l.Sound) (n : Nat) {t : Token} (ht : t.isRead = true) :
    (l.take n t).Sound := h.push (l := { l with cursor := l.cursor.advanceBy n }) ht

theorem Sound.skipToToken (h : l.Sound) (fuel : Nat) : (l.skipToToken fuel).Sound := by
  induction fuel generalizing l with
  | zero => exact h
  | succ fuel ih =>
    unfold Lexer.skipToToken
    dsimp only
    split
    · exact ih h
    · exact h

theorem Sound.unwindFrom (h : l.Sound) (column : Int) (indents : List Int) :
    (l.unwindFrom column indents).Sound := by
  induction indents generalizing l with
  | nil => exact h
  | cons outer rest ih =>
    unfold Lexer.unwindFrom
    split
    · exact ih (Sound.push (l := { l with indent := outer, outerIndents := rest }) h rfl)
    · exact h

theorem Sound.unwind (h : l.Sound) (column : Int) : (l.unwind column).Sound := by
  unfold Lexer.unwind
  split
  · exact h
  · exact h.unwindFrom column _

theorem Sound.dropStaleKeys (h : l.Sound) : GetsOn l.dropStaleKeys :=
  ends_ite (ends_refuse _) (ends_ok h)

theorem Sound.dropKey (h : l.Sound) : GetsOn l.dropKey := by
  unfold Lexer.dropKey
  split
  · exact ends_ite (ends_refuse _) (ends_ok h)
  · exact ends_ok h

theorem Sound.saveKey (h : l.Sound) : GetsOn l.saveKey :=
  ends_ite (h.dropKey.bind fun _ hl => ends_ok hl) (ends_ok h)

theorem Sound.openBlock (h : l.Sound) (column : Nat) : (l.openBlock column).2.Sound := by
  unfold Lexer.openBlock
  split
  · exact h
  · exact h

theorem Sound.openBlockHere (h : l.Sound) {t : Token} (ht : t.isRead = true) :
    GetsOn (l.openBlockHere t) := by
  refine ends_ite (ends_ok h) (ends_ite (ends_refuse _) (ends_ok ?_))
  split
  · exact (h.openBlock _).push ht
  · exact h.openBlock _

theorem Sound.takeEnd (h : l.Sound) : GetsOn l.takeEnd :=
  (h.unwind _).dropKey.bind fun l hl =>
    ends_pure (Sound.push (l := { l with keyAllowed := false, keys := [] }) hl rfl)

theorem Sound.takeDirective (h : l.Sound) : GetsOn l.takeDirective :=
  (h.unwind _).dropKey.bind fun l hl => (readsToken_directiveToken _).bind fun p hp =>
    ends_pure (Sound.push (l := { l with keyAllowed := false, cursor := p.2 }) hl hp)

theorem Sound.takeSeparator (h : l.Sound) {t : Token} (ht : t.isRead = true) :
    GetsOn (l.takeSeparator t) :=
  (h.unwind _).dropKey.bind fun l hl =>
    ends_pure (Sound.take (l := { l with keyAllowed := false }) hl 3 ht)

theorem Sound.takeFlowStart (h : l.Sound) {t : Token} (ht : t.isRead = true) :
    GetsOn (l.takeFlowStart t) :=
  h.saveKey.bind fun l hl => ends_pure
    (Sound.take (l := { l with flowLevel := l.flowLevel + 1, keyAllowed := true }) hl 1 ht)

theorem Sound.takeFlowEnd (h : l.Sound) {t : Token} (ht : t.isRead = true) :
    GetsOn (l.takeFlowEnd t) :=
  h.dropKey.bind fun l hl => ends_pure
    (Sound.take (l := { l with flowLevel := l.flowLevel - 1, keyAllowed := false }) hl 1 ht)

theorem Sound.takeAfter (h : l.Sound) {t : Token} (ht : t.isRead = true) :
    GetsOn (l.dropKey >>= fun l => pure (l.take 1 t)) :=
  h.dropKey.bind fun _ hl => ends_pure (hl.take 1 ht)

theorem Sound.takeFlowEntry (h : l.Sound) : GetsOn l.takeFlowEntry :=
  Sound.takeAfter (l := { l with keyAllowed := true }) h rfl

theorem Sound.takeBlockEntry (h : l.Sound) : GetsOn l.takeBlockEntry :=
  (h.openBlockHere rfl).bind fun l hl =>
    Sound.takeAfter (l := { l with keyAllowed := true }) hl rfl

theorem Sound.takeKey (h : l.Sound) : GetsOn l.takeKey :=
  (h.openBlockHere rfl).bind fun l hl =>
    Sound.takeAfter (l := { l with keyAllowed := !l.inFlow }) hl rfl

theorem Sound.insert (h : l.Sound) (place : Nat) {before : Array Token}
    (hbefore : ∀ t ∈ before, t.isRead = true) :
    ∀ t ∈ l.tokens.extract 0 place ++ before ++ l.tokens.extract place l.tokens.size,
      t.isRead = true := by
  intro t ht
  rcases Array.mem_append.1 ht with ht | ht
  · rcases Array.mem_append.1 ht with ht | ht
    · exact h.extract _ _ t ht
    · exact hbefore t ht
  · exact h.extract _ _ t ht

theorem Sound.takeValue (h : l.Sound) : GetsOn l.takeValue := by
  have hmarks (opened : Bool) :
      ∀ t ∈ if opened then #[Token.blockMappingStart, .key] else #[.key], t.isRead = true := by
    cases opened <;> decide
  unfold Lexer.takeValue
  split
  · next k _ =>
    have hopened : (if l.inFlow then (false, l.withoutKey)
        else l.withoutKey.openBlock k.column).2.Sound := by
      split
      · exact h
      · exact Sound.openBlock (l := l.withoutKey) h _
    refine ends_ok fun t ht => ?_
    rcases Array.mem_push.1 ht with hold | rfl
    · exact hopened.insert k.token (hmarks _) t hold
    · rfl
  · exact (h.openBlockHere rfl).bind fun l hl =>
      Sound.takeAfter (l := { l with keyAllowed := !l.inFlow }) hl rfl

theorem Sound.takeKeyable (h : l.Sound) {read : Cursor → Except Halt (Token × Cursor)}
    (hread : ∀ c, ReadsToken (read c)) : GetsOn (l.takeKeyable read) :=
  h.saveKey.bind fun l hl => (hread _).bind fun p hp =>
    ends_pure (Sound.push (l := { l with keyAllowed := false, cursor := p.2 }) hl hp)

theorem Sound.takeBlockScalar (h : l.Sound) (folded : Bool) : GetsOn (l.takeBlockScalar folded) :=
  (Sound.dropKey (l := { l with keyAllowed := true }) h).bind fun l hl =>
    (within_blockScalar _ _ _).bind_ends fun p =>
      ends_pure (Sound.push (l := { l with cursor := p.2 }) hl rfl)

theorem Sound.takePlain (h : l.Sound) : GetsOn l.takePlain :=
  h.saveKey.bind fun l hl => ends_pure
    (Sound.push (l := { l with cursor := _, keyAllowed := _ }) hl rfl)

theorem readsToken_readAnchor {make : String → Token} (hmake : ∀ name, (make name).isRead = true)
    (c : Cursor) : ReadsToken (readAnchor make c) :=
  (within_anchorName c).bind_ends fun _ => ends_pure (hmake _)

theorem readsToken_readQuoted (double : Bool) (c : Cursor) : ReadsToken (readQuoted double c) :=
  (within_quotedScalar double c).bind_ends fun _ => ends_pure rfl

theorem Sound.takeToken (h : l.Sound) : GetsOn l.takeToken :=
  -- one case per kind of token, in the order in which they are told apart
  ends_ite h.takeEnd <|
    ends_ite h.takeDirective <|
    ends_ite (h.takeSeparator rfl) <|
    ends_ite (h.takeSeparator rfl) <|
    ends_ite (h.takeFlowStart rfl) <|
    ends_ite (h.takeFlowStart rfl) <|
    ends_ite (h.takeFlowEnd rfl) <|
    ends_ite (h.takeFlowEnd rfl) <|
    ends_ite h.takeFlowEntry <|
    ends_ite h.takeBlockEntry <|
    ends_ite h.takeKey <|
    ends_ite h.takeValue <|
    ends_ite (h.takeKeyable (readsToken_readAnchor fun _ => rfl)) <|
    ends_ite (h.takeKeyable (readsToken_readAnchor fun _ => rfl)) <|
    ends_ite (h.takeKeyable readsToken_tagToken) <|
    ends_ite (h.takeBlockScalar _) <|
    ends_ite (h.takeBlockScalar _) <|
    ends_ite (h.takeKeyable (readsToken_readQuoted _)) <|
    ends_ite (h.takeKeyable (readsToken_readQuoted _)) <|
    ends_ite h.takePlain (ends_refuse _)

theorem Sound.step (h : l.Sound) : GetsOn l.step :=
  (h.skipToToken _).dropStaleKeys.bind fun _ hl => (hl.unwind _).takeToken

/-! ### All tokens -/

/-- A problem of the text, or the fault that its source has. -/
def ProblemOf (source : Source) (p : Problem) : Prop := p.OfText ∨ source.fault = some p

theorem Sound.next (h : l.Sound) (source : Source) :
    Ends (ProblemOf source) Sound (l.next source) := by
  have hfault {index : Nat} {p : Problem} (hp : source.faultAt? index = some p) :
      source.fault = some p := Option.eq_some_of_filter_eq_some hp
  unfold Lexer.next
  split
  · next halt hhalt =>
    refine ends_error ?_
    cases hp : source.faultAt? halt.index with
    | none => exact .inl (h.step.1 halt hhalt)
    | some p => exact .inr (hfault hp)
  · next l' hl' =>
    split
    · next p hp => exact ends_error (.inr (hfault hp))
    · exact ends_ok (h.step.2 l' hl')

section Run

variable {source : Source} {fuel : Nat} {l l' : Lexer} {p : Problem}

-- With the next token open, unfolding the loop would compute it.
attribute [local irreducible] Lexer.next

theorem run_of_error (h : l.next source = .error p) :
    l.run source (fuel + 1) = (l.tokens.extract 0 l.completed).push (.broken p) := by
  conv => lhs; whnf
  rw [h]

theorem run_of_ok (h : l.next source = .ok l') :
    l.run source (fuel + 1) = if l'.isAtEnd then l'.tokens else l'.run source fuel := by
  conv => lhs; whnf
  rw [h]

end Run

theorem not_broken_mem {ts : Array Token} (h : ∀ t ∈ ts, t.isRead = true) (p : Problem) :
    .broken p ∉ ts :=
  fun hmem => Bool.false_ne_true (h _ hmem)

/-- A token that is missing tells the problem that its source has. -/
theorem Sound.run (h : l.Sound) {source : Source} (fuel : Nat) {p : Problem}
    (hp : .broken p ∈ l.run source fuel) : ProblemOf source p := by
  induction fuel generalizing l with
  | zero => exact absurd hp (not_broken_mem h p)
  | succ fuel ih =>
    cases hnext : l.next source with
    | error q =>
      rw [run_of_error hnext] at hp
      rcases Array.mem_push.1 hp with hread | hbroken
      · exact absurd hread (not_broken_mem (h.extract _ _) p)
      · cases hbroken
        exact (h.next source).1 p hnext
    | ok l' =>
      have hl' := (h.next source).2 l' hnext
      rw [run_of_ok hnext] at hp
      split at hp
      · exact absurd hp (not_broken_mem hl' p)
      · exact ih hl' hp

end Lexer

theorem Token.problemOf_of_mem_ofSource {source : Source} {p : Problem}
    (h : .broken p ∈ Token.ofSource source) : Lexer.ProblemOf source p := by
  have hstart : ({ Lexer.start source.chars with
      cursor := Lexer.skipByteOrderMark (Lexer.start source.chars).cursor } : Lexer).Sound :=
    fun t ht => absurd ht (Array.not_mem_empty t)
  exact hstart.run _ (Array.mem_toList_iff.1 h)

end FuzzyAlgebra.Yaml

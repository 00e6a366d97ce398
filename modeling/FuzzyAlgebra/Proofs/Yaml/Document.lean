import FuzzyAlgebra.Proofs.Yaml.Node
import FuzzyAlgebra.Proofs.Yaml.Source
import FuzzyAlgebra.Yaml.Document

/-!
# Which problems documents can have

A document is not well formed, or one of its scalars has no value. If its bytes are no text, that
can show instead, but only then.
-/

namespace FuzzyAlgebra.Yaml

open Lexer (ProblemOf)

/-! ### Values of scalars -/

/-- A value is read, or there is none for a reason that scalars can have. -/
def ReadsValue {α : Type} (r : Except Mishap α) : Prop := Within (· ∈ scalarMishaps) r

theorem readsValue_signedRest (cs : List Char) : ReadsValue (signedRest cs) := by
  unfold signedRest
  dsimp only
  split
  · exact within_error (by decide)
  · exact within_ok _

theorem readsValue_wholeIn (base : Nat) (cs : List Char) : ReadsValue (wholeIn base cs) := by
  unfold wholeIn
  dsimp only
  split
  · exact within_error (by decide)
  · split
    · exact within_ok _
    · exact within_error (by decide)

theorem readsValue_intOf (text : String) : ReadsValue (intOf text) := by
  have hsigned (negative : Bool) {r : Except Mishap Int} (h : ReadsValue r) :
      ReadsValue (r >>= fun n => pure (applySign negative n)) := h.bind fun _ => within_pure _
  unfold intOf
  refine (readsValue_signedRest _).bind fun ⟨negative, cs⟩ => ?_
  dsimp only
  split
  · exact hsigned negative (within_error (by decide))
  · exact hsigned negative (within_pure 0)
  · exact hsigned negative (readsValue_wholeIn _ _)
  · exact hsigned negative (readsValue_wholeIn _ _)
  · exact hsigned negative (readsValue_wholeIn _ _)
  · exact (within_mapM (readsValue_wholeIn _) _).bind fun _ => hsigned negative (within_pure _)

theorem readsValue_numberOf (cs : List Char) : ReadsValue (numberOf cs) := by
  unfold numberOf
  split
  · exact within_ok _
  · exact within_error (by decide)

theorem readsValue_bounded (x : Binary64) : ReadsValue (Value.bounded x) := by
  unfold Value.bounded
  split
  · exact within_ok _
  · exact within_error (by decide)

theorem readsValue_sumSixties (unit : Nat) (sum : Binary64) (digits : List Binary64) :
    ReadsValue (sumSixties unit sum digits) := by
  induction digits generalizing unit sum with
  | nil => exact within_ok _
  | cons digit rest ih =>
    unfold sumSixties
    exact (readsValue_bounded _).bind fun _ => ih _ _

theorem readsValue_floatOf (text : String) : ReadsValue (floatOf text) := by
  have hsigned (negative : Bool) {r : Except Mishap Binary64} (h : ReadsValue r) :
      ReadsValue (r >>= fun x => pure (if negative then -x else x)) := h.bind fun _ => within_pure _
  unfold floatOf
  refine (readsValue_signedRest _).bind fun ⟨negative, cs⟩ => ?_
  dsimp only
  split
  · exact hsigned negative (within_pure _)
  split
  · exact hsigned negative (within_pure _)
  split
  · exact (within_mapM readsValue_numberOf _).bind fun _ =>
      hsigned negative (readsValue_sumSixties _ _ _)
  · exact hsigned negative (readsValue_numberOf _)

theorem readsValue_truthOf (text : String) : ReadsValue (truthOf text) := by
  unfold truthOf
  dsimp only
  split
  · exact within_ok _
  split
  · exact within_ok _
  · exact within_error (by decide)

theorem readsValue_toValue (t : Timestamp) : ReadsValue t.toValue := by
  unfold Timestamp.toValue
  split
  · exact within_error (by decide)
  split
  · exact within_ok _
  split
  · exact within_ok _
  · exact within_error (by decide)

theorem readsValue_timestampOf (text : String) : ReadsValue (timestampOf text) := by
  unfold timestampOf
  split
  · exact readsValue_toValue _
  · exact within_error (by decide)

/-! ### Outlines -/

theorem within_lift {r : Except Mishap Value} (h : ReadsValue r) :
    Within Problem.OfText (lift r) :=
  Within.mapError (h.mono fun _ => .mishap)

theorem within_bytesOf (text : String) : Within Problem.OfText (bytesOf text) := by
  unfold bytesOf
  split
  · exact within_ok _
  · exact within_error .malformed

theorem within_scalarOf (tag : Tag) (text : String) :
    Within Problem.OfText (scalarOf tag text) := by
  unfold scalarOf
  split
  · exact within_ok _
  · exact within_lift (readsValue_truthOf _)
  · exact within_lift ((readsValue_intOf _).map _)
  · exact within_lift ((readsValue_floatOf _).map _)
  · exact within_bytesOf _
  · exact within_lift (readsValue_timestampOf _)
  · exact within_ok _
  · exact within_error .malformed

theorem within_ofScalar (nodes : Array Node) (number : Nat) :
    Within Problem.OfText (Outline.ofScalar nodes number) := by
  unfold Outline.ofScalar
  dsimp only
  split
  · exact within_error .malformed
  · exact within_error (.mishap (by decide))
  · exact (within_scalarOf _ _).bind fun _ => within_pure _

namespace Builder

variable {α : Type}

/-- The builder fails with problems of the text only. -/
def Builds (m : Builder α) : Prop := Keeps (fun _ => True) Problem.OfText m

theorem builds_fail : Builds (fail : Builder α) := keeps_throw .malformed

theorem builds_pure (a : α) : Builds (pure a : Builder α) := keeps_pure a

theorem builds_get : Builds (get : Builder Building) := keeps_get

theorem builds_modify (f : Building → Building) : Builds (modify f) :=
  keeps_modify fun _ _ => trivial

theorem Builds.bind {β : Type} {m : Builder α} {f : α → Builder β} (hm : Builds m)
    (hf : ∀ a, Builds (f a)) : Builds (m >>= f) := Keeps.bind hm hf

theorem Builds.map {β : Type} {m : Builder α} (hm : Builds m) (f : α → β) : Builds (f <$> m) :=
  Keeps.map hm f

theorem builds_node (number : Nat) : Builds (node number) :=
  builds_get.bind fun _ => builds_pure _

theorem builds_setNode (number : Nat) (node : Node) : Builds (setNode number node) :=
  builds_modify _

theorem builds_setOutline (number : Nat) (outline : Outline) :
    Builds (setOutline number outline) := builds_modify _

theorem builds_items (number : Nat) : Builds (items number) := by
  refine (builds_node _).bind fun _ => ?_
  split
  · exact builds_pure _
  · exact builds_fail

theorem builds_entries (number : Nat) : Builds (entries number) := by
  refine (builds_node _).bind fun _ => ?_
  split
  · exact builds_pure _
  · exact builds_fail

theorem builds_settleKey (number : Nat) : Builds (settleKey number) := by
  refine (builds_node _).bind fun _ => ?_
  split
  · exact builds_setNode _ _
  · exact builds_pure _

theorem builds_sources (number : Nat) : Builds (sources number) := by
  refine (builds_node _).bind fun _ => ?_
  split
  · exact builds_pure _
  · exact builds_pure _
  · exact builds_fail

theorem builds_mergeInto (number : Nat) (merged : Entries) (fuel : Nat) :
    Builds (mergeInto number merged fuel) := by
  induction fuel generalizing number merged with
  | zero => exact builds_fail
  | succ fuel ih =>
    unfold mergeInto
    refine (builds_entries _).bind fun own => (builds_node _).bind fun node =>
      builds_get.bind fun s => ?_
    dsimp only
    split
    · exact Builds.bind (keeps_forM (fun _ => builds_settleKey _) _) fun _ => builds_setNode _ _
    · refine (builds_setNode _ _).bind fun _ => (builds_sources _).bind fun p => ?_
      refine Builds.bind (keeps_mapM (fun m => ?_) _) fun _ => ih _ _
      exact (ih _ _).bind fun _ => builds_entries _

theorem builds_make (number : Nat) : Builds (make number) := by
  refine builds_get.bind fun s => ?_
  split
  · exact builds_pure _
  split
  · exact (builds_modify _).bind fun _ => (builds_setOutline _ _).bind fun _ => builds_pure _
  · exact Builds.bind (keeps_lift (within_ofScalar _ _)) fun _ =>
      (builds_setOutline _ _).bind fun _ => builds_pure _

theorem builds_makeEntries (number fuel : Nat) : Builds (makeEntries number fuel) := by
  refine (builds_entries _).bind fun _ => (builds_mergeInto _ _ _).bind fun _ =>
    (builds_entries _).bind fun own => Builds.bind (keeps_mapM (fun entry => ?_) own) fun _ =>
      builds_pure _
  refine Builds.bind (builds_make entry.1) fun _ => ?_
  split
  · exact (builds_make _).bind fun _ => builds_pure _
  · exact builds_fail

theorem builds_makePairs (number : Nat) : Builds (makePairs number) := by
  refine (builds_items _).bind fun _ => keeps_mapM (fun n => ?_) _
  refine Builds.bind (builds_entries n) fun _ => ?_
  split
  · exact (builds_make _).bind fun _ => (builds_make _).bind fun _ => builds_pure _
  · exact builds_fail

theorem builds_fill (fuel number : Nat) : Builds (fill fuel number) := by
  have hset {m : Builder Outline} (hm : Builds m) : Builds (m >>= setOutline number) :=
    hm.bind fun _ => builds_setOutline _ _
  unfold fill
  refine (builds_node _).bind fun _ => ?_
  dsimp only
  split
  · exact (builds_items _).bind fun _ => Builds.bind (keeps_forM (fun _ => (builds_make _).map _) _)
      fun _ => hset (builds_pure _)
  · exact hset ((builds_makeEntries _ _).map _)
  · exact hset ((builds_makePairs _).map _)
  · exact hset ((builds_makePairs _).map _)
  · exact hset ((builds_makeEntries _ _).map _)

theorem builds_fillAll (fuel rounds : Nat) : Builds (fillAll fuel rounds) := by
  induction rounds with
  | zero => exact builds_pure _
  | succ rounds ih =>
    refine builds_get.bind fun s => ?_
    dsimp only
    split
    · exact builds_pure _
    · exact (builds_modify _).bind fun _ =>
        Builds.bind (keeps_forM (fun _ => builds_fill _ _) _) fun _ => ih

end Builder

namespace Document

theorem within_outlines (d : Document) : Within Problem.OfText d.outlines := by
  have hbuild (fuel rounds : Nat) :
      Builder.Builds (discard (Builder.make d.root) >>= fun _ => Builder.fillAll fuel rounds) :=
    Builder.Builds.bind ((Builder.builds_make _).map _) fun _ => Builder.builds_fillAll _ _
  exact ((hbuild _ _).within trivial).bind fun _ => within_pure _

theorem within_toValue (d : Document) : Within Problem.OfText d.toValue :=
  d.within_outlines.bind fun _ => within_pure _

end Document

/-- A text that gives no value is not well formed or has a scalar without a value, or its bytes are
no text. -/
theorem problem_of_read {bytes : ByteArray} {p : Problem} (h : read bytes = .error p) :
    p.OfText ∨ p = .mishap .undecodable ∧ String.fromUTF8? bytes = none := by
  obtain ⟨source, hsource⟩ : ∃ source, source = Source.ofBytes bytes.toList := ⟨_, rfl⟩
  have htokens := Document.within_ofTokens (@Token.problemOf_of_mem_ofSource source)
  have hread : Within (ProblemOf source) (read bytes) := by
    unfold read
    rw [← hsource]
    refine htokens.bind fun document? => ?_
    split
    · exact (Document.within_toValue _).mono fun _ => .inl
    · exact within_pure _
  rcases hread p h with htext | hfault
  · exact .inl htext
  · rw [hsource] at hfault
    rcases Source.fault_ofBytes hfault with rfl | hundecodable
    · exact .inl .malformed
    · exact .inr hundecodable

end FuzzyAlgebra.Yaml

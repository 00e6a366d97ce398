import FuzzyAlgebra.Proofs.Text.Utf8
import FuzzyAlgebra.Yaml.Source

/-!
# Which faults a source can have

A source is cut off where a piece of its bytes is no text, or where a piece holds a character that
no document may hold. Bytes that are a text are never cut off for the first reason, no matter how
they are divided into pieces: what is left of them closes what the pieces before have left open.
-/

namespace FuzzyAlgebra.Yaml

open Text

namespace Feed

variable {f : Feed}

/-- The bytes that are left close what is open, and leave nothing open themselves. -/
def IsText (f : Feed) : Prop := ∃ cs, Utf8.decode? f.pending f.bytes = some (cs, .closed)

/-- How many bytes are asked for. -/
def size (f : Feed) (wanted : Nat) : Nat :=
  max portion (max wanted (wanted * f.taken.1 / f.taken.2))

theorem refill?_of_decode {wanted : Nat} {cs : List Char} {o : Utf8.Open}
    (hpiece : Utf8.decode? f.pending (f.bytes.take (f.size wanted)) = some (cs, o))
    (hend : f.bytes = [] → o = .closed) :
    ∃ next, f.refill? wanted = some next ∧ next.bytes = f.bytes.drop (f.size wanted) ∧
      next.pending = o := by
  have hmissing : ((f.bytes.take (f.size wanted)).isEmpty && o.missing ≠ 0) = false := by
    have hsize : f.size wanted ≠ 0 := by
      have : portion ≤ f.size wanted := Nat.le_max_left _ _
      simp only [portion] at this
      omega
    cases hbytes : f.bytes with
    | nil => simp [hend hbytes, Utf8.Open.closed]
    | cons b rest => simp [hsize]
  unfold refill?
  rw [size] at hpiece hmissing
  simp only [hpiece, Option.bind_eq_bind, Option.bind_some, hmissing]
  exact ⟨_, rfl, rfl, rfl⟩

theorem IsText.exists_refill? (h : f.IsText) (wanted : Nat) :
    ∃ next, f.refill? wanted = some next ∧ next.IsText := by
  obtain ⟨cs, hcs⟩ := h
  have hsplit := hcs
  rw [← List.take_append_drop (f.size wanted) f.bytes] at hsplit
  obtain ⟨cs₁, o, cs₂, hpiece, hrest, -⟩ := Utf8.decode?_append_eq_some hsplit
  have hend (hbytes : f.bytes = []) : o = .closed := by
    rw [hbytes, List.drop_nil] at hrest
    exact (Prod.mk.inj (Option.some.inj hrest)).2
  obtain ⟨next, hnext, hbytes, hpending⟩ := refill?_of_decode hpiece hend
  exact ⟨next, hnext, cs₂, by rw [hbytes, hpending, hrest]⟩

theorem IsText.exists_read? (h : f.IsText) (n fuel : Nat) :
    ∃ piece next, f.read? n fuel = some (piece, next) ∧ next.IsText := by
  induction fuel generalizing f n with
  | zero => exact ⟨[], f, rfl, h⟩
  | succ fuel ih =>
    have hrest : ({ f with ready := f.ready.drop n } : Feed).IsText := h
    obtain ⟨next, hnext, hnextText⟩ := hrest.exists_refill? (n - (f.ready.take n).length)
    obtain ⟨more, last, hlast, hlastText⟩ := ih hnextText (n - (f.ready.take n).length)
    rw [read?]
    dsimp only
    split
    · exact ⟨_, _, rfl, hrest⟩
    · rw [hnext, Option.bind_eq_bind, Option.bind_some]
      split
      · exact ⟨_, _, rfl, hnextText⟩
      · rw [hlast]
        exact ⟨_, _, rfl, hlastText⟩

theorem IsText.nextPiece?_ne_none (h : f.IsText) : f.nextPiece? ≠ none := by
  obtain ⟨piece, next, hpiece, -⟩ := h.exists_read? pieceLength (f.bytes.length + 2)
  rw [nextPiece?, hpiece]
  exact Option.some_ne_none _

theorem IsText.next {piece : List Char} {next : Feed} (h : f.IsText)
    (hpiece : f.nextPiece? = some (piece, next)) : next.IsText := by
  obtain ⟨piece', next', hpiece', hnext'⟩ := h.exists_read? pieceLength (f.bytes.length + 2)
  obtain ⟨-, rfl⟩ := Prod.mk.inj (Option.some.inj (hpiece'.symm.trans hpiece))
  exact hnext'

theorem isText_start {bytes : ByteArray} {s : String} (h : String.fromUTF8? bytes = some s) :
    (start bytes.toList).IsText :=
  ⟨s.toList, Utf8.decode?_of_fromUTF8? h⟩

end Feed

namespace Source

variable {p : Problem}

theorem fault_gather {piece : List Char} {rest : Source}
    (h : (gather piece rest).fault = some p) : p = .malformed ∨ rest.fault = some p := by
  unfold gather at h
  split at h
  · exact .inr h
  · exact .inl (Option.some.inj h).symm

theorem fault_ofFeed {fuel : Nat} {f : Feed} (h : (ofFeed fuel f).fault = some p) :
    p = .malformed ∨ p = .mishap .undecodable ∧ ¬ f.IsText := by
  induction fuel generalizing f with
  | zero => cases h
  | succ fuel ih =>
    unfold ofFeed at h
    split at h
    case h_1 hpiece =>
      exact .inr ⟨(Option.some.inj h).symm, fun hf => hf.nextPiece?_ne_none hpiece⟩
    case h_2 => cases h
    case h_3 hpiece =>
      rcases fault_gather h with hp | hrest
      · exact .inl hp
      · exact (ih hrest).imp_right fun hp => ⟨hp.1, fun hf => hp.2 (hf.next hpiece)⟩

/-- A fault is a character that is not accepted, or that the bytes are no text. -/
theorem fault_ofBytes {bytes : ByteArray} (h : (ofBytes bytes.toList).fault = some p) :
    p = .malformed ∨ p = .mishap .undecodable ∧ String.fromUTF8? bytes = none := by
  have hnone (hf : ¬ (Feed.start bytes.toList).IsText) : String.fromUTF8? bytes = none :=
    Option.eq_none_iff_forall_ne_some.2 fun s hs => hf (Feed.isText_start hs)
  unfold ofBytes at h
  dsimp only at h
  cases hfirst : (Feed.start bytes.toList).nextPiece? with
  | none =>
    rw [hfirst] at h
    exact .inr ⟨(Option.some.inj h).symm, hnone fun hf => hf.nextPiece?_ne_none hfirst⟩
  | some first =>
    obtain ⟨a, f⟩ := first
    cases hsecond : f.nextPiece? with
    | none =>
      simp only [hfirst, hsecond, Option.bind_eq_bind, Option.bind_some, Option.bind_none] at h
      refine .inr ⟨(Option.some.inj h).symm, hnone fun hf => ?_⟩
      exact (hf.next hfirst).nextPiece?_ne_none hsecond
    | some second =>
      obtain ⟨b, f'⟩ := second
      simp only [hfirst, hsecond, Option.bind_eq_bind, Option.bind_some] at h
      rcases fault_gather h with hp | hrest
      · exact .inl hp
      · refine (fault_ofFeed hrest).imp_right fun hp => ⟨hp.1, hnone fun hf => hp.2 ?_⟩
        exact (hf.next hfirst).next hsecond

end Source

end FuzzyAlgebra.Yaml

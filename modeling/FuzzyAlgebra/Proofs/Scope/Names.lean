import FuzzyAlgebra.Proofs.Scope.History
import Mathlib.Data.List.TFAE
import Mathlib.Tactic.TFAE

/-!
# The names in view

Three walks answer whether a name is in view: from the top to the first frame that binds it, through
all frames, and from the root collecting names. On every stack they agree. The order in which names
are collected is that of the history: a frame is bound in only while it is on top, so all that was
bound in a bottom part of the stack is older than what was bound above it. As with looking up, the
invariant says so for every bottom part, so that it survives when frames are taken off.
-/

namespace FuzzyAlgebra

theorem Frame.contains_iff {τ : Type} {f : Frame τ} {n : String} :
    f.contains n = true ↔ n ∈ f.names := by
  simp [contains, get?, names]

namespace ScopeStack

variable {τ : Type} {s : ScopeStack τ} {n : String}

/-- The names bound in a row of frames, the innermost frame first, from the root on. -/
def namesIn (frames : List (Frame τ)) : List String := frames.reverse.flatMap Frame.names

theorem names_eq (s : ScopeStack τ) : s.names = (namesIn s.inwardOut).eraseDups := by
  rw [names, frames_eq_reverse, namesIn]

theorem mem_names_iff : n ∈ s.names ↔ ∃ f ∈ s.inwardOut, n ∈ f.names := by
  simp [names_eq, namesIn]

theorem isDefined_text (s : ScopeStack τ) (n : String) :
    s.isDefined (.text n) = pure (decide (n ∈ s.names)) := by
  have hany : (s.inwardOut.any fun f => f.contains n) = decide (n ∈ s.names) := by
    rw [Bool.eq_iff_iff, List.any_eq_true, decide_eq_true_eq, mem_names_iff]
    simp only [Frame.contains_iff]
  rw [isDefined, ofMishap_nameOf_text, pure_bind, Option.any_some, hany]

theorem exists_find?_iff : (∃ b, s.find? n = some b) ↔ n ∈ s.names := by
  simp only [find?, ← Option.isSome_iff_exists, List.findSome?_isSome_iff, mem_names_iff,
    ← Frame.contains_iff, Frame.contains]

theorem exists_lookup_iff : (∃ b, (s.lookup (.text n)).result = .ok b) ↔ n ∈ s.names := by
  rw [← exists_find?_iff]
  constructor
  · rintro ⟨b, hb⟩
    obtain ⟨m, hm, hfind⟩ := exists_of_lookup_eq_ok hb
    cases hm
    exact ⟨b, hfind⟩
  · rintro ⟨b, hb⟩
    exact ⟨b, by rw [lookup_of_some hb, Traced.result_pure]⟩

theorem exists_get_iff [ClassHierarchy τ] :
    (∃ set, (s.get (.text n) .absent).result = .ok set) ↔ n ∈ s.names := by
  rw [← exists_lookup_iff]
  constructor
  · rintro ⟨set, hset⟩
    cases hlookup : (s.lookup (.text n)).result with
    | ok b => exact ⟨b, rfl⟩
    | error e =>
      rw [result_get_of_error hlookup] at hset
      cases hset
  · rintro ⟨b, hb⟩
    obtain ⟨m, hm, hfind⟩ := exists_of_lookup_eq_ok hb
    cases hm
    exact ⟨b.value, by rw [get_of_lookup_eq_pure (lookup_of_some hfind), Traced.result_pure]⟩

end ScopeStack

namespace ScopeRun

variable {τ : Type}

/-- Whether an assignment was made in one of the frames. -/
def isIn (frames : List (Frame τ)) (a : Assignment τ) : Bool :=
  frames.any fun f => f.key = a.frame

def assignedName (a : Assignment τ) : String := a.binding.name

/-- The names that were assigned in one of the frames, as often as they were and in that order. -/
def chronicle (frames : List (Frame τ)) (assigned : List (Assignment τ)) : List String :=
  (assigned.reverse.filter (isIn frames)).map assignedName

/-- When a name was first assigned in a frame that is still on the stack, counted in successful
assignments. -/
def earliest? (run : ScopeRun τ) (name : String) : Option Nat :=
  place? assignedName (isIn run.stack.inwardOut) run.assigned.reverse name

/-- Both names are bound on the stack, and the first was assigned there first. -/
def AssignedBefore (run : ScopeRun τ) (name other : String) : Prop :=
  ∃ i j, run.earliest? name = some i ∧ run.earliest? other = some j ∧ i < j

/-- Every bottom part of the stack holds its names in the order of the history. -/
def Chronological (run : ScopeRun τ) : Prop :=
  ∀ bottom, bottom <:+ run.stack.inwardOut →
    (ScopeStack.namesIn bottom).eraseDups = (chronicle bottom run.assigned).eraseDups

/-! ### What each frame was assigned -/

section Chronicle

variable {frames : List (Frame τ)} {assigned : List (Assignment τ)}

theorem chronicle_congr {frames' : List (Frame τ)}
    (h : ∀ a ∈ assigned, isIn frames' a = isIn frames a) :
    chronicle frames' assigned = chronicle frames assigned := by
  rw [chronicle, chronicle,
    List.filter_congr fun a ha => h a (List.mem_reverse.mp ha)]

theorem chronicle_cons_frame_of_forall_ne {f : Frame τ} (h : ∀ a ∈ assigned, f.key ≠ a.frame) :
    chronicle (f :: frames) assigned = chronicle frames assigned :=
  chronicle_congr fun a ha => by simp [isIn, h a ha]

theorem chronicle_cons_of_not_in {a : Assignment τ} (h : ∀ f ∈ frames, f.key ≠ a.frame) :
    chronicle frames (a :: assigned) = chronicle frames assigned := by
  have hout : isIn frames a = false := by simpa [isIn] using h
  simp [chronicle, hout]

theorem chronicle_cons_of_in {a : Assignment τ} (h : isIn frames a = true) :
    chronicle frames (a :: assigned) = chronicle frames assigned ++ [a.binding.name] := by
  simp [chronicle, h, assignedName]

end Chronicle

theorem namesIn_cons (f : Frame τ) (frames : List (Frame τ)) :
    ScopeStack.namesIn (f :: frames) = ScopeStack.namesIn frames ++ f.names := by
  simp [ScopeStack.namesIn]

/-- Binding in the top frame adds the name at the end, as far as first occurrences go. -/
theorem eraseDups_namesIn_bind (f : Frame τ) (b : Binding τ) (frames : List (Frame τ)) :
    (ScopeStack.namesIn (f.bind b :: frames)).eraseDups =
      (ScopeStack.namesIn (f :: frames) ++ [b.name]).eraseDups := by
  rw [namesIn_cons, namesIn_cons, Frame.names_bind, List.append_assoc]
  by_cases hmem : b.name ∈ f.names
  · rw [if_pos hmem, ← List.append_assoc, eraseDups_append_singleton,
      if_pos (List.mem_append_right _ hmem)]
  · rw [if_neg hmem]

/-! ### The invariant -/

theorem chronological_start : Chronological (start : ScopeRun τ) := by
  intro bottom hbottom
  rcases List.suffix_cons_iff.mp hbottom with rfl | hnil
  · rfl
  · rw [List.suffix_nil.mp hnil]
    rfl

theorem Chronological.push {run : ScopeRun τ} (h : Chronological run) (hrun : Coherent run)
    (name : String) :
    Chronological ⟨run.stack.push (.empty (run.calls + 1) name), run.calls + 1, run.assigned⟩ := by
  have hfresh : ∀ a ∈ run.assigned, run.calls + 1 ≠ a.frame := by
    intro a ha
    have := hrun.frame_le a ha
    omega
  intro bottom hbottom
  change bottom <:+ .empty (run.calls + 1) name :: run.stack.inwardOut at hbottom
  change _ = (chronicle bottom run.assigned).eraseDups
  rcases List.suffix_cons_iff.mp hbottom with rfl | hbelow
  · rw [chronicle_cons_frame_of_forall_ne hfresh, namesIn_cons, ← h _ (List.suffix_refl _)]
    exact congrArg List.eraseDups (List.append_nil _)
  · exact h bottom hbelow

theorem Chronological.pop {run : ScopeRun τ} (h : Chronological run) {f : Frame τ}
    {rest : List (Frame τ)} (hinner : run.stack.inner = f :: rest) :
    Chronological ⟨⟨run.stack.root, rest⟩, run.calls + 1, run.assigned⟩ := by
  intro bottom hbottom
  refine h bottom (hbottom.trans ?_)
  rw [ScopeStack.inwardOut_of_inner hinner]
  exact List.suffix_cons _ _

theorem Chronological.bind {run : ScopeRun τ} (h : Chronological run) (hrun : Coherent run)
    (b : Binding τ) :
    Chronological ⟨run.stack.mapCurrent fun f => f.bind b, run.calls + 1,
      ⟨run.stack.current.key, b⟩ :: run.assigned⟩ := by
  have hframes := run.stack.inwardOut_eq_cons
  have hnodup := hrun.nodup
  rw [hframes, List.map_cons, List.nodup_cons] at hnodup
  intro bottom hbottom
  rw [run.stack.inwardOut_mapCurrent fun f => f.bind b] at hbottom
  change _ = (chronicle bottom (⟨run.stack.current.key, b⟩ :: run.assigned)).eraseDups
  rcases List.suffix_cons_iff.mp hbottom with rfl | hbelow
  · have hsame : chronicle (run.stack.current.bind b :: run.stack.outer) run.assigned =
        chronicle run.stack.inwardOut run.assigned := by
      rw [hframes]
      exact chronicle_congr fun a _ => rfl
    rw [chronicle_cons_of_in (by simp [isIn]), hsame, eraseDups_namesIn_bind, ← hframes]
    exact eraseDups_append_singleton_congr (h _ (List.suffix_refl _)) b.name
  · have hclosed : ∀ f ∈ bottom, f.key ≠ run.stack.current.key := by
      intro f hf hkey
      exact hnodup.1 (hkey ▸ List.mem_map_of_mem (hbelow.subset hf))
    rw [chronicle_cons_of_not_in hclosed]
    refine h bottom (hbelow.trans ?_)
    rw [hframes]
    exact List.suffix_cons _ _

variable [ClassHierarchy τ]

theorem Chronological.step {run : ScopeRun τ} (h : Chronological run) (hrun : Coherent run)
    (c : ScopeCall τ) : Chronological (run.step c) := by
  rcases run.step_cases c with ⟨name, heq⟩ | ⟨f, rest, hinner, heq⟩ | ⟨_, _, _, b, -, heq⟩ | heq
  · rw [heq]
    exact h.push hrun name
  · rw [heq]
    exact h.pop hinner
  · rw [heq]
    exact h.bind hrun b
  · rw [heq]
    exact h

theorem chronological_after (calls : List (ScopeCall τ)) : Chronological (after calls) := by
  have hboth := after_induction (motive := fun run => Coherent run ∧ Chronological run)
    (⟨coherent_start, chronological_start⟩ : Coherent start ∧ Chronological start)
    (fun _ c h => ⟨h.1.step c, h.2.step h.1 c⟩) calls
  exact hboth.2

theorem names_eq_chronicle (calls : List (ScopeCall τ)) :
    (after calls).stack.names =
      (chronicle (after calls).stack.inwardOut (after calls).assigned).eraseDups := by
  rw [ScopeStack.names_eq]
  exact chronological_after calls _ (List.suffix_refl _)

/-- **The names in view.** After any calls, a name is defined if and only if it is listed, if and
only if looking it up succeeds, if and only if asking for it without an expected type does. The
listing holds each name once, and the names stand in the order of their earliest successful
assignments in frames that are still on the stack. -/
theorem names_after (calls : List (ScopeCall τ)) :
    (∀ n, List.TFAE [
      ((after calls).stack.isDefined (.text n)).result = .ok true,
      n ∈ (after calls).stack.names,
      ∃ b, ((after calls).stack.lookup (.text n)).result = .ok b,
      ∃ set, ((after calls).stack.get (.text n) .absent).result = .ok set]) ∧
    (after calls).stack.names.Nodup ∧
    (∀ n, n ∈ (after calls).stack.names ↔ ∃ i, (after calls).earliest? n = some i) ∧
    (after calls).stack.names.Pairwise (after calls).AssignedBefore := by
  have hnames := names_eq_chronicle calls
  refine ⟨fun n => ?_, ?_, fun n => ?_, ?_⟩
  · tfae_have 1 ↔ 2 := by
      rw [ScopeStack.isDefined_text, Traced.result_pure, Except.ok.injEq, decide_eq_true_eq]
    tfae_have 3 ↔ 2 := ScopeStack.exists_lookup_iff
    tfae_have 4 ↔ 2 := ScopeStack.exists_get_iff
    tfae_finish
  · rw [hnames]
    exact nodup_eraseDups _
  · rw [hnames, List.mem_eraseDups]
    exact exists_place?_iff.symm
  · rw [hnames]
    exact pairwise_place?_eraseDups assignedName _ _

/-- A name keeps its place when it is assigned again, and when an inner frame hides it. -/
example :
    let set : FuzzySet ElementType := .primitive ⟨1, .absent, none⟩ .identity
    (after [.assign (.text "cold") (.set set) .absent, .assign (.text "hot") (.set set) .absent,
      .enter "rule", .assign (.text "mild") (.set set) .absent,
      .assign (.text "cold") (.set set) .absent]).stack.names = ["cold", "hot", "mild"] := by
  decide

end ScopeRun

end FuzzyAlgebra

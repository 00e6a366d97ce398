import FuzzyAlgebra.Proofs.Scope.Run
import Mathlib.Data.List.Find

/-!
# Looking up is reading the history backwards

The history of a run is flat: it knows frames by their keys only. A name means what its most recent
assignment says among those made in a frame that is still on the stack. The stack finds the same by
walking from the top, because the assignments of an inner frame are all more recent than those of the
frames below it. The invariant says so for every bottom part of the stack, so that it survives when
frames are taken off.
-/

namespace FuzzyAlgebra

namespace ScopeRun

variable {τ : Type}

/-- The most recent assignment of a name in one of the frames. -/
def latestIn (frames : List (Frame τ)) (assigned : List (Assignment τ)) (name : String) :
    Option (Assignment τ) :=
  assigned.find? fun a => a.binding.name = name && frames.any fun f => f.key = a.frame

/-- The most recent assignment of a name in a frame that is still on the stack. -/
def latest? (run : ScopeRun τ) (name : String) : Option (Assignment τ) :=
  latestIn run.stack.inwardOut run.assigned name

/-- Frames have keys of their own, used up already, and the bottom parts of the stack look names up
as the history does. -/
structure Coherent (run : ScopeRun τ) : Prop where
  key_le : ∀ f ∈ run.stack.inwardOut, f.key ≤ run.calls
  frame_le : ∀ a ∈ run.assigned, a.frame ≤ run.calls
  nodup : (run.stack.inwardOut.map Frame.key).Nodup
  lookup : ∀ bottom, bottom <:+ run.stack.inwardOut → ∀ name,
    bottom.findSome? (fun f => f.get? name) =
      (latestIn bottom run.assigned name).map Assignment.binding

/-! ### The most recent assignment -/

section Latest

variable {frames : List (Frame τ)} {assigned : List (Assignment τ)} {name : String}

theorem latestIn_cons_frame_of_forall_ne {f : Frame τ} (h : ∀ a ∈ assigned, f.key ≠ a.frame) :
    latestIn (f :: frames) assigned name = latestIn frames assigned name := by
  unfold latestIn
  refine List.find?_congr fun a ha => ?_
  simp [h a ha]

theorem latestIn_congr_key {f g : Frame τ} (h : g.key = f.key) :
    latestIn (g :: frames) assigned name = latestIn (f :: frames) assigned name := by
  simp [latestIn, h]

theorem latestIn_cons_of_name_ne {a : Assignment τ} (h : ¬ a.binding.name = name) :
    latestIn frames (a :: assigned) name = latestIn frames assigned name := by
  simp [latestIn, h]

theorem latestIn_cons_of_not_open {a : Assignment τ} (h : ∀ f ∈ frames, f.key ≠ a.frame) :
    latestIn frames (a :: assigned) name = latestIn frames assigned name := by
  have hany : frames.any (fun f => f.key = a.frame) = false := by simpa using h
  simp [latestIn, hany]

theorem latestIn_cons_self {a : Assignment τ} {f : Frame τ} (hname : a.binding.name = name)
    (hframe : f.key = a.frame) :
    latestIn (f :: frames) (a :: assigned) name = some a := by
  simp [latestIn, hname, hframe]

end Latest

/-! ### The invariant -/

theorem coherent_start : Coherent (start : ScopeRun τ) where
  key_le := by simp [start, ScopeStack.empty, ScopeStack.inwardOut, Frame.empty]
  frame_le := by simp [start]
  nodup := by simp [start, ScopeStack.empty, ScopeStack.inwardOut]
  lookup := by
    intro bottom hbottom name
    have hassigned : (start : ScopeRun τ).assigned = [] := rfl
    rw [hassigned]
    rcases List.suffix_cons_iff.mp hbottom with rfl | hnil
    · rfl
    · rw [List.suffix_nil.mp hnil]
      rfl

theorem Coherent.push {run : ScopeRun τ} (h : Coherent run) (name : String) :
    Coherent ⟨run.stack.push (.empty (run.calls + 1) name), run.calls + 1, run.assigned⟩ := by
  have hfresh : ∀ a ∈ run.assigned, run.calls + 1 ≠ a.frame := by
    intro a ha
    have := h.frame_le a ha
    omega
  refine ⟨?_, ?_, ?_, ?_⟩
  · intro f hf
    rcases List.mem_cons.mp hf with rfl | hf
    · exact Nat.le_refl _
    · exact Nat.le_succ_of_le (h.key_le f hf)
  · intro a ha
    exact Nat.le_succ_of_le (h.frame_le a ha)
  · rw [ScopeStack.inwardOut_push, List.map_cons, List.nodup_cons]
    refine ⟨?_, h.nodup⟩
    intro hmem
    obtain ⟨f, hf, hkey⟩ := List.mem_map.mp hmem
    have hle := h.key_le f hf
    have hkey : f.key = run.calls + 1 := hkey
    omega
  · intro bottom hbottom n
    change bottom <:+ .empty (run.calls + 1) name :: run.stack.inwardOut at hbottom
    change _ = (latestIn bottom run.assigned n).map Assignment.binding
    rcases List.suffix_cons_iff.mp hbottom with rfl | hbelow
    · rw [latestIn_cons_frame_of_forall_ne hfresh, ← h.lookup _ (List.suffix_refl _) n]
      rfl
    · exact h.lookup bottom hbelow n

theorem Coherent.pop {run : ScopeRun τ} (h : Coherent run) {f : Frame τ} {rest : List (Frame τ)}
    (hinner : run.stack.inner = f :: rest) :
    Coherent ⟨⟨run.stack.root, rest⟩, run.calls + 1, run.assigned⟩ := by
  have hframes := ScopeStack.inwardOut_of_inner hinner
  have hsuffix : (⟨run.stack.root, rest⟩ : ScopeStack τ).inwardOut <:+ run.stack.inwardOut := by
    rw [hframes]
    exact List.suffix_cons _ _
  refine ⟨?_, ?_, ?_, ?_⟩
  · intro g hg
    exact Nat.le_succ_of_le (h.key_le g (hsuffix.subset hg))
  · intro a ha
    exact Nat.le_succ_of_le (h.frame_le a ha)
  · exact h.nodup.sublist (hsuffix.sublist.map _)
  · intro bottom hbottom name
    exact h.lookup bottom (hbottom.trans hsuffix) name

theorem Coherent.bind {run : ScopeRun τ} (h : Coherent run) (b : Binding τ) :
    Coherent ⟨run.stack.mapCurrent fun f => f.bind b, run.calls + 1,
      ⟨run.stack.current.key, b⟩ :: run.assigned⟩ := by
  have hframes := run.stack.inwardOut_eq_cons
  have hframes' := run.stack.inwardOut_mapCurrent fun f => f.bind b
  have hcurrent : run.stack.current ∈ run.stack.inwardOut := by
    rw [hframes]
    exact List.mem_cons_self
  have hnodup := h.nodup
  rw [hframes, List.map_cons, List.nodup_cons] at hnodup
  have houter : run.stack.outer <:+ run.stack.inwardOut := by
    rw [hframes]
    exact List.suffix_cons _ _
  refine ⟨?_, ?_, ?_, ?_⟩
  · intro f hf
    rw [hframes'] at hf
    rcases List.mem_cons.mp hf with rfl | hf
    · exact Nat.le_succ_of_le (h.key_le run.stack.current hcurrent)
    · exact Nat.le_succ_of_le (h.key_le f (houter.subset hf))
  · intro a ha
    rcases List.mem_cons.mp ha with rfl | ha
    · exact Nat.le_succ_of_le (h.key_le _ hcurrent)
    · exact Nat.le_succ_of_le (h.frame_le a ha)
  · rw [hframes', List.map_cons, List.nodup_cons]
    exact hnodup
  · intro bottom hbottom name
    rw [hframes'] at hbottom
    rcases List.suffix_cons_iff.mp hbottom with rfl | hbelow
    · rw [List.findSome?_cons, Frame.get?_bind]
      by_cases hname : b.name = name
      · rw [if_pos hname, latestIn_cons_self hname rfl]
        rfl
      · rw [if_neg hname, latestIn_cons_of_name_ne hname,
          latestIn_congr_key (Frame.key_bind run.stack.current b), ← hframes,
          ← h.lookup _ (List.suffix_refl _) name, hframes, List.findSome?_cons]
    · have hclosed : ∀ f ∈ bottom, f.key ≠ run.stack.current.key := by
        intro f hf hkey
        exact hnodup.1 (hkey ▸ List.mem_map_of_mem (hbelow.subset hf))
      rw [latestIn_cons_of_not_open hclosed]
      exact h.lookup bottom (hbelow.trans houter) name

variable [ClassHierarchy τ]

theorem Coherent.step {run : ScopeRun τ} (h : Coherent run) (c : ScopeCall τ) :
    Coherent (run.step c) := by
  rcases run.step_cases c with ⟨name, heq⟩ | ⟨f, rest, hinner, heq⟩ | ⟨_, _, _, b, -, heq⟩ | heq
  · rw [heq]
    exact h.push name
  · rw [heq]
    exact h.pop hinner
  · rw [heq]
    exact h.bind b
  · rw [heq]
    exact ⟨fun f hf => Nat.le_succ_of_le (h.key_le f hf),
      fun a ha => Nat.le_succ_of_le (h.frame_le a ha), h.nodup, h.lookup⟩

theorem coherent_after (calls : List (ScopeCall τ)) : Coherent (after calls) :=
  after_induction coherent_start (fun _ c h => h.step c) calls

/-- **Scope over whole histories.** After any calls, a name means what its most recent successful
assignment in a frame still on the stack says: looking it up gives that binding, and asking for it
gives the very set. Without such an assignment both fail, and the failure lists the frames from the
innermost to the root. -/
theorem lookup_after (calls : List (ScopeCall τ)) (name : String) :
    (∀ a, (after calls).latest? name = some a →
      a.binding.name = name ∧
        (after calls).stack.lookup (.text name) = pure a.binding ∧
        (after calls).stack.get (.text name) .absent = pure a.binding.value) ∧
    ((after calls).latest? name = none →
      ∃ f : Failure, f.kind = .undefinedVariable ∧
        f.details.lookup "scopes_searched" =
          some (.value (.list ((after calls).stack.frames.reverse.map fun f => .text f.name))) ∧
        ((after calls).stack.lookup (.text name)).result = .error (.failure f) ∧
        ((after calls).stack.get (.text name) .absent).result = .error (.failure f)) := by
  have hfind : (after calls).stack.find? name =
      ((after calls).latest? name).map Assignment.binding :=
    (coherent_after calls).lookup _ (List.suffix_refl _) name
  constructor
  · intro a ha
    rw [ha] at hfind
    have hname : a.binding.name = name := by
      have := List.find?_some ha
      simp only [Bool.and_eq_true, decide_eq_true_eq] at this
      exact this.1
    have hlookup := ScopeStack.lookup_of_some hfind
    exact ⟨hname, hlookup, ScopeStack.get_of_lookup_eq_pure hlookup⟩
  · intro hnone
    rw [hnone] at hfind
    have hlookup := ScopeStack.result_lookup_of_none hfind
    refine ⟨_, rfl, ?_, hlookup, ScopeStack.result_get_of_error hlookup _⟩
    rw [ScopeStack.frames_eq_reverse, List.reverse_reverse]
    exact congrArg (fun names => some (Detail.value (.list names))) List.map_map

/-- After the inner frame was left, the older assignment counts again. -/
example :
    let outer : FuzzySet ElementType := .primitive ⟨1, .absent, none⟩ .identity
    let inner : FuzzySet ElementType := .primitive ⟨2, .absent, none⟩ .identity
    (after [.assign (.text "t") (.set outer) .absent, .enter "rule",
      .assign (.text "t") (.set inner) .absent, .exit]).latest? "t" =
        some ⟨0, "t", outer, none⟩ := rfl

end ScopeRun

end FuzzyAlgebra

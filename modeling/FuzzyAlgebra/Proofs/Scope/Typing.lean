import FuzzyAlgebra.Proofs.ElementType
import FuzzyAlgebra.Proofs.Scope.Run

/-!
# Typed look-ups

A binding is tagged by the assignment that made it, and its tag may say less than the type of its
set. What every assignment checks, and what stays true of every frame on the stack, is that the set
is usable over the tag. A typed look-up compares with the tag alone, so it is right about the set
because subclassing is transitive.
-/

namespace FuzzyAlgebra

variable {τ : Type} [ClassHierarchy τ]

/-- What an assignment checks of a binding. -/
structure Binding.Sound (b : Binding τ) : Prop where
  name_ne : b.name ≠ ""
  untagged : b.elementType = none → b.value.elementType = none
  le_tag : ∀ t u, b.value.elementType = some t → b.elementType = some u →
    ClassHierarchy.isSubclass t u = true

/-- A frame that holds every name once, in a binding of that name. -/
structure Frame.Sound (f : Frame τ) : Prop where
  nodup : f.names.Nodup
  bindings : ∀ b ∈ f.bindings, b.Sound

namespace Binding

/-- A binding with a tag of its own was compared with it; one without takes that of the set. -/
theorem Sound.of_fits [LawfulHierarchy τ] {name : String} (hname : name ≠ "") {set : FuzzySet τ}
    {tag : Option τ} (h : fits set.elementType tag = true) :
    Sound ⟨name, set, tag <|> set.elementType⟩ where
  name_ne := hname
  untagged := by
    intro hnone
    change (tag <|> set.elementType) = none at hnone
    cases tag with
    | none => exact hnone
    | some u => cases hnone
  le_tag := by
    intro t u ht hu
    change set.elementType = some t at ht
    change (tag <|> set.elementType) = some u at hu
    rw [ht] at h hu
    cases tag with
    | none =>
      cases hu
      exact LawfulHierarchy.refl t
    | some v =>
      cases hu
      exact h

theorem Sound.of_checkBinding [LawfulHierarchy τ] {name : Value} {value : Operand τ}
    {declared : TagArgument τ} {b : Binding τ}
    (h : (ScopeStack.checkBinding name value declared).result = .ok b) : b.Sound := by
  obtain ⟨n, set, -, hn, -, -, hfits, rfl⟩ := ScopeStack.checkBinding_eq_ok_iff.mp h
  exact Sound.of_fits hn hfits

theorem Sound.isSubclass_of_fits [LawfulHierarchy τ] {b : Binding τ} (h : b.Sound) {t u : τ}
    (hfits : fits b.elementType (some t) = true) (hu : b.value.elementType = some u) :
    ClassHierarchy.isSubclass u t = true := by
  cases htag : b.elementType with
  | none =>
    rw [h.untagged htag] at hu
    cases hu
  | some v =>
    rw [htag] at hfits
    exact LawfulHierarchy.trans u v t (h.le_tag u v hu htag) hfits

theorem fits_of_isSubclass [LawfulHierarchy τ] {bound : Option τ} {t t' : τ}
    (hfits : fits bound (some t) = true) (h : ClassHierarchy.isSubclass t t' = true) :
    fits bound (some t') = true := by
  cases bound with
  | none => rfl
  | some v => exact LawfulHierarchy.trans v t t' hfits h

end Binding

namespace Frame

theorem sound_empty (key : Nat) (name : String) : Sound (empty key name : Frame τ) where
  nodup := List.nodup_nil
  bindings := by
    intro b hb
    cases hb

theorem Sound.bind {f : Frame τ} (h : f.Sound) {b : Binding τ} (hb : b.Sound) :
    (f.bind b).Sound where
  nodup := nodup_names_bind h.nodup b
  bindings := by
    intro c hc
    rcases mem_bindings_bind hc with rfl | hold
    · exact hb
    · exact h.bindings c hold

omit [ClassHierarchy τ] in
theorem mem_of_get? {f : Frame τ} {n : String} {b : Binding τ} (h : f.get? n = some b) :
    b ∈ f.bindings :=
  List.mem_of_find?_eq_some h

end Frame

namespace ScopeStack

variable {s : ScopeStack τ} {n : String} {b : Binding τ}

omit [ClassHierarchy τ] in
theorem Innermost.result_lookup (h : s.Innermost n b) : (s.lookup (.text n)).result = .ok b := by
  rw [lookup_of_some (find?_eq_some_iff.mpr h), Traced.result_pure]

theorem Innermost.sound (h : s.Innermost n b) (hs : ∀ f ∈ s.inwardOut, f.Sound) : b.Sound := by
  obtain ⟨passed, f, rest, hframes, -, hf⟩ := h
  have hmem : f ∈ s.inwardOut := by
    rw [hframes]
    exact List.mem_append_right _ List.mem_cons_self
  exact (hs f hmem).bindings b (Frame.mem_of_get? hf)

theorem Innermost.get_cases (h : s.Innermost n b) (t : τ) :
    (Binding.fits b.elementType (some t) = true ∧
      (s.get (.text n) (.tag t)).result = .ok b.value) ∨
    ∃ f : Failure, f.kind = .typeMismatch ∧
      (s.get (.text n) (.tag t)).result = .error (.failure f) := by
  have hget := result_get_tag h.result_lookup t
  by_cases hfits : Binding.fits b.elementType (some t) = true
  · rw [if_pos hfits] at hget
    exact .inl ⟨hfits, hget⟩
  · rw [if_neg hfits] at hget
    exact .inr ⟨_, rfl, hget⟩

theorem exists_innermost_of_get {name : Value} {t : τ} {set : FuzzySet τ}
    (h : (s.get name (.tag t)).result = .ok set) :
    ∃ n b, name = .text n ∧ s.Innermost n b ∧ b.value = set ∧
      Binding.fits b.elementType (some t) = true := by
  cases hlookup : (s.lookup name).result with
  | error e =>
    rw [result_get_of_error hlookup] at h
    cases h
  | ok b =>
    obtain ⟨n, rfl, hfound⟩ := exists_of_lookup_eq_ok hlookup
    rw [result_get_tag hlookup] at h
    by_cases hfits : Binding.fits b.elementType (some t) = true
    · rw [if_pos hfits] at h
      cases h
      exact ⟨n, b, rfl, find?_eq_some_iff.mp hfound, rfl, hfits⟩
    · rw [if_neg hfits] at h
      cases h

end ScopeStack

namespace ScopeRun

variable [LawfulHierarchy τ]

theorem sound_step {run : ScopeRun τ} (h : ∀ f ∈ run.stack.inwardOut, f.Sound)
    (c : ScopeCall τ) : ∀ f ∈ (run.step c).stack.inwardOut, f.Sound := by
  rcases run.step_cases c with ⟨name, heq⟩ | ⟨top, rest, hinner, heq⟩ |
    ⟨name, value, declared, b, hb, heq⟩ | heq
  · rw [heq]
    intro f hf
    rcases List.mem_cons.mp hf with rfl | hf
    · exact Frame.sound_empty _ _
    · exact h f hf
  · rw [heq]
    intro f hf
    apply h f
    rw [ScopeStack.inwardOut_of_inner hinner]
    exact List.mem_cons_of_mem _ hf
  · rw [heq]
    rw [ScopeStack.inwardOut_eq_cons] at h
    intro f hf
    rw [ScopeStack.inwardOut_mapCurrent] at hf
    rcases List.mem_cons.mp hf with rfl | hf
    · exact (h _ List.mem_cons_self).bind (Binding.Sound.of_checkBinding hb)
    · exact h f (List.mem_cons_of_mem _ hf)
  · rw [heq]
    exact h

theorem sound_after (calls : List (ScopeCall τ)) :
    ∀ f ∈ (after calls).stack.inwardOut, f.Sound :=
  after_induction (motive := fun run => ∀ f ∈ run.stack.inwardOut, f.Sound)
    (by
      intro f hf
      rw [List.mem_singleton.mp hf]
      exact Frame.sound_empty _ _)
    (fun _ c h => sound_step h c) calls

/-- **Typed look-ups never give a set of a wrong type.** After any calls every frame is sound and
finds each of its bindings under its own name. A look-up over a type gives the set of the innermost
binding or fails with a mismatch, whatever the outer frames hold; the set it gives has no type or one
below the type asked for; and asking over a type above gives the same set. -/
theorem get_tag_after (calls : List (ScopeCall τ)) :
    (after calls).stack.frames ≠ [] ∧
    (∀ f ∈ (after calls).stack.frames,
      f.Sound ∧ (∀ b ∈ f.bindings, f.get? b.name = some b) ∧
        ∀ n b, f.get? n = some b → b.name = n) ∧
    (∀ n b t, (after calls).stack.Innermost n b →
      ((after calls).stack.get (.text n) (.tag t)).result = .ok b.value ∨
        ∃ f : Failure, f.kind = .typeMismatch ∧
          ((after calls).stack.get (.text n) (.tag t)).result = .error (.failure f)) ∧
    ∀ name t set, ((after calls).stack.get name (.tag t)).result = .ok set →
      (∃ n b, name = .text n ∧ (after calls).stack.Innermost n b ∧ b.value = set) ∧
      (∀ u, set.elementType = some u → ClassHierarchy.isSubclass u t = true) ∧
      ∀ t', ClassHierarchy.isSubclass t t' = true →
        ((after calls).stack.get name (.tag t')).result = .ok set := by
  have hsound := sound_after calls
  refine ⟨?_, ?_, ?_, ?_⟩
  · rw [ScopeStack.frames]
    exact List.cons_ne_nil _ _
  · intro f hf
    rw [ScopeStack.frames_eq_reverse, List.mem_reverse] at hf
    refine ⟨hsound f hf, fun b hb => Frame.get?_of_mem (hsound f hf).nodup hb, ?_⟩
    intro n b hget
    simpa using List.find?_some hget
  · intro n b t hinnermost
    exact (hinnermost.get_cases t).imp_left And.right
  · intro name t set hget
    obtain ⟨n, b, rfl, hinnermost, rfl, hfits⟩ := ScopeStack.exists_innermost_of_get hget
    refine ⟨⟨n, b, rfl, hinnermost, rfl⟩, ?_, ?_⟩
    · intro u hu
      exact (hinnermost.sound hsound).isSubclass_of_fits hfits hu
    · intro t' hle
      rw [ScopeStack.result_get_tag hinnermost.result_lookup,
        if_pos (Binding.fits_of_isSubclass hfits hle)]

/-- An inner set over cats, under a tag of its own, hides an outer one over dogs. -/
theorem get_tag_after_shadowing :
    let dogs : FuzzySet ElementType := .primitive ⟨1, .absent, some .dog⟩ .identity
    let cats : FuzzySet ElementType := .primitive ⟨2, .absent, some .cat⟩ .identity
    let calls := [.assign (.text "tame") (.set dogs) .absent, .enter "rule",
      .assign (.text "tame") (.set cats) (.tag .pet)]
    LawfulHierarchy ElementType ∧
      ((after calls).stack.get (.text "tame") (.tag .pet)).result = .ok cats ∧
      (∀ u, cats.elementType = some u → ClassHierarchy.isSubclass u ElementType.pet = true) ∧
      (∀ t', ClassHierarchy.isSubclass ElementType.pet t' = true →
        ((after calls).stack.get (.text "tame") (.tag t')).result = .ok cats) ∧
      ((after calls).stack.get (.text "tame") (.tag .dog)).result =
        .error (.failure (.requestedMismatch (.text "tame") "Dog" "Pet")) := by
  intro dogs cats calls
  have hget : ((after calls).stack.get (.text "tame") (.tag .pet)).result = .ok cats := rfl
  obtain ⟨-, hsound, habove⟩ := (get_tag_after calls).2.2.2 (.text "tame") .pet cats hget
  exact ⟨inferInstance, hget, hsound, habove, rfl⟩

end ScopeRun

end FuzzyAlgebra

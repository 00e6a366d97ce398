import FuzzyAlgebra.Proofs.FuzzySet.Graph
import Mathlib.Logic.Function.Iterate

/-!
# The walk that finds the depth

A pending set is marked once it has been expanded, that is, once its operands stand before it.
Three facts hold before each visit. Every height in the table is right. Whatever stands before a
marked set has less height, so that no set is expanded while it is pending. And by the time a marked
set is visited, all of its operands have heights: each of them has one already or stands before it.
A visit takes one set off, and an expansion puts back that set and some of its operands, so the
number of visits is bounded by the expansions, whatever the number of paths.
-/

namespace FuzzyAlgebra

namespace HeightWalk

variable {τ : Type} {root t : FuzzySet τ} {w w' : HeightWalk τ}

/-- The walk after the next pending set is taken off. -/
def next (w : HeightWalk τ) : HeightWalk τ :=
  match w.pending with
  | [] => w
  | (s, expanded) :: rest => visit s expanded rest w.heights

/-- The set that the next visit expands. -/
def expanding? (w : HeightWalk τ) : Option (FuzzySet τ) :=
  match w.pending with
  | [] => none
  | (s, expanded) :: _ =>
    if w.heights.contains s.key || expanded || s.operands.isEmpty then none else some s

/-- The set whose height the next visit finds, from the heights of its operands. -/
def settling? (w : HeightWalk τ) : Option (FuzzySet τ) :=
  match w.pending with
  | [] => none
  | (s, expanded) :: _ =>
    if !w.heights.contains s.key && (expanded || s.operands.isEmpty) then some s else none

/-- The sets that the first visits expand. -/
def expansions (w : HeightWalk τ) (visits : Nat) : List (FuzzySet τ) :=
  (List.range visits).filterMap fun i => (next^[i] w).expanding?

/-! ### One visit -/

/-- What a visit makes of a walk, and the set that it expands. -/
inductive Visit : HeightWalk τ → HeightWalk τ → Option (FuzzySet τ) → Prop
  | ended {heights} : Visit ⟨[], heights⟩ ⟨[], heights⟩ none
  | known {t expanded rest heights} (hknown : heights.contains t.key = true) :
    Visit ⟨(t, expanded) :: rest, heights⟩ ⟨rest, heights⟩ none
  | settle {t expanded rest heights} (hready : expanded = true ∨ t.operands = []) :
    Visit ⟨(t, expanded) :: rest, heights⟩
      ⟨rest, heights.insert t.key (heightOver heights t)⟩ none
  | expand {t rest heights} (hunknown : heights.contains t.key = false)
    (hcomposite : t.operands ≠ []) :
    Visit ⟨(t, false) :: rest, heights⟩
      ⟨unknownOperands heights t ++ (t, true) :: rest, heights⟩ (some t)

theorem visit_next (w : HeightWalk τ) : Visit w w.next w.expanding? := by
  obtain ⟨pending, heights⟩ := w
  cases pending with
  | nil => exact .ended
  | cons first rest =>
    obtain ⟨t, expanded⟩ := first
    simp only [next, expanding?, visit]
    cases hknown : heights.contains t.key with
    | true => exact .known hknown
    | false =>
      by_cases hready : expanded = true ∨ t.operands = []
      · have htest : (expanded || t.operands.isEmpty) = true := by
          rwa [Bool.or_eq_true, List.isEmpty_iff]
        rw [if_neg Bool.false_ne_true, if_pos htest, Bool.false_or, if_pos htest]
        exact .settle hready
      · obtain ⟨hexpanded, hcomposite⟩ := not_or.mp hready
        obtain rfl : expanded = false := Bool.eq_false_iff.mpr hexpanded
        have htest : ¬ (false || t.operands.isEmpty) = true := by
          rwa [Bool.false_or, List.isEmpty_iff]
        rw [if_neg Bool.false_ne_true, if_neg htest, Bool.false_or, if_neg htest]
        exact .expand hknown hcomposite

/-! ### Sets that are ready -/

/-- The operands of each marked set are known, or stand before it. After all sets the goal is
known. -/
def Ready (goal : Nat) : (Nat → Prop) → List (FuzzySet τ × Bool) → Prop
  | known, [] => known goal
  | known, (t, expanded) :: rest =>
    (expanded = true → ∀ o ∈ t.operands, known o.key) ∧
      Ready goal (fun k => known k ∨ k = t.key) rest

variable {goal : Nat} {known known' : Nat → Prop} {pending : List (FuzzySet τ × Bool)}

theorem Ready.mono (h : Ready goal known pending) (hle : ∀ k, known k → known' k) :
    Ready goal known' pending := by
  induction pending generalizing known known' with
  | nil => exact hle goal h
  | cons first rest ih =>
    refine ⟨fun hexpanded o ho => hle o.key (h.1 hexpanded o ho), ih h.2 fun k hk => ?_⟩
    exact hk.imp_left (hle k)

theorem ready_append {sets : List (FuzzySet τ)}
    (h : Ready goal (fun k => known k ∨ ∃ o ∈ sets, k = o.key) pending) :
    Ready goal known (sets.map (fun o => (o, false)) ++ pending) := by
  induction sets generalizing known with
  | nil => exact h.mono fun k hk => hk.resolve_right (by simp)
  | cons first rest ih =>
    refine ⟨nofun, ih (h.mono fun k hk => ?_)⟩
    simpa only [List.mem_cons, exists_eq_or_imp, or_assoc] using hk

/-! ### What holds before each visit -/

structure Sound (root : FuzzySet τ) (w : HeightWalk τ) : Prop where
  nodes : ∀ p ∈ w.pending, p.1 ∈ root.nodes
  heights : ∀ t ∈ root.nodes, ∀ h, w.heights[t.key]? = some h → h = t.height
  ordered : w.pending.Pairwise fun p q => q.2 = true → p.1.height < q.1.height
  ready : Ready root.key (fun k => w.heights.contains k = true) w.pending

theorem sound_start (root : FuzzySet τ) : Sound root (start root) where
  nodes := by
    intro p hp
    rw [List.mem_singleton.mp hp]
    exact root.self_mem_nodes
  heights := by
    intro t _ h hfound
    rw [start, Std.HashMap.getElem?_empty] at hfound
    cases hfound
  ordered := List.pairwise_singleton _ _
  ready := ⟨nofun, .inr rfl⟩

theorem Sound.getElem?_eq (hs : Sound root w) (ht : t ∈ root.nodes)
    (hknown : w.heights.contains t.key = true) : w.heights[t.key]? = some t.height := by
  rw [Std.HashMap.contains_eq_isSome_getElem?] at hknown
  obtain ⟨h, hfound⟩ := Option.isSome_iff_exists.mp hknown
  rw [hfound, hs.heights t ht h hfound]

theorem Sound.heightOver_eq (hs : Sound root w) (ht : t ∈ root.nodes)
    (hknown : ∀ o ∈ t.operands, w.heights.contains o.key = true) :
    heightOver w.heights t = t.height := by
  have hoperands : t.operands.map (fun o => w.heights.getD o.key 0) =
      t.operands.map FuzzySet.height := by
    apply List.map_congr_left
    intro o ho
    have hnode := FuzzySet.mem_nodes_of_mem_operands ht ho
    rw [Std.HashMap.getD_eq_getD_getElem?, hs.getElem?_eq hnode (hknown o ho), Option.getD_some]
  rw [heightOver, hoperands, ← FuzzySet.height_eq]

/-- The operands of the set that is visited next are known, if its height can be found. -/
theorem Sound.operands_known {expanded : Bool} {rest : List (FuzzySet τ × Bool)}
    {heights : Std.HashMap Nat Nat} (hs : Sound root ⟨(t, expanded) :: rest, heights⟩)
    (hready : expanded = true ∨ t.operands = []) :
    ∀ o ∈ t.operands, heights.contains o.key = true := by
  rcases hready with hexpanded | hprimitive
  · exact hs.ready.1 hexpanded
  · rw [hprimitive]
    exact nofun

theorem mem_operands_of_unknown {heights : Std.HashMap Nat Nat} {p : FuzzySet τ × Bool}
    (hp : p ∈ unknownOperands heights t) : p.1 ∈ t.operands := by
  obtain ⟨o, ho, rfl⟩ := List.mem_map.mp hp
  exact List.mem_of_mem_filter (List.mem_reverse.mp ho)

theorem contains_insert_iff {heights : Std.HashMap Nat Nat} {k k' h : Nat} :
    (heights.insert k h).contains k' = true ↔ heights.contains k' = true ∨ k' = k := by
  rw [Std.HashMap.contains_insert, Bool.or_eq_true, beq_iff_eq, or_comm, eq_comm (a := k)]

theorem Sound.step (hroot : root.Identified) (hs : Sound root w) {expanded : Option (FuzzySet τ)}
    (h : Visit w w' expanded) : Sound root w' := by
  cases h with
  | ended => exact hs
  | known hknown =>
    refine ⟨fun p hp => hs.nodes p (.tail _ hp), hs.heights, hs.ordered.of_cons, hs.ready.2.mono ?_⟩
    rintro k (hk | rfl)
    · exact hk
    · exact hknown
  | @settle t expanded rest heights hready =>
    have ht : t ∈ root.nodes := hs.nodes _ (.head _)
    have hover := hs.heightOver_eq ht (hs.operands_known hready)
    refine ⟨fun p hp => hs.nodes p (.tail _ hp), ?_, hs.ordered.of_cons, hs.ready.2.mono ?_⟩
    · intro u hu h hfound
      rw [Std.HashMap.getElem?_insert] at hfound
      split at hfound
      · rename_i hkey
        obtain rfl := hroot t ht u hu (beq_iff_eq.mp hkey)
        rw [← Option.some.inj hfound]
        exact hover
      · exact hs.heights u hu h hfound
    · exact fun k hk => contains_insert_iff.mpr hk
  | @expand t rest heights hunknown hcomposite =>
    have ht : t ∈ root.nodes := hs.nodes (t, false) (.head _)
    obtain ⟨hfirst, hrest⟩ := List.pairwise_cons.mp hs.ordered
    refine ⟨?_, hs.heights, List.pairwise_append.mpr ⟨?_, ?_, ?_⟩, ?_⟩
    · intro p hp
      rcases List.mem_append.mp hp with hp | hp
      · exact FuzzySet.mem_nodes_of_mem_operands ht (mem_operands_of_unknown hp)
      · rcases List.mem_cons.mp hp with rfl | hp
        · exact ht
        · exact hs.nodes p (.tail _ hp)
    · exact List.pairwise_map.mpr (List.pairwise_of_forall fun _ _ => nofun)
    · exact List.pairwise_cons.mpr ⟨hfirst, hrest⟩
    · -- an operand has less height than the set, and so than all marked sets behind it
      intro p hp q hq hmarked
      have hlt : p.1.height < t.height :=
        FuzzySet.height_lt_of_mem_operands (mem_operands_of_unknown hp)
      rcases List.mem_cons.mp hq with rfl | hq
      · exact hlt
      · exact Nat.lt_trans hlt (hfirst q hq hmarked)
    · apply ready_append
      refine ⟨fun _ o ho => ?_, hs.ready.2.mono fun k hk => hk.imp_left .inl⟩
      by_cases hknown : heights.contains o.key = true
      · exact .inl hknown
      · refine .inr ⟨o, List.mem_reverse.mpr (List.mem_filter.mpr ⟨ho, ?_⟩), rfl⟩
        rw [Bool.eq_false_iff.mpr hknown, Bool.not_false]

theorem sound_iterate (hroot : root.Identified) (n : Nat) : Sound root (next^[n] (start root)) := by
  induction n with
  | zero => exact sound_start root
  | succ n ih =>
    rw [Function.iterate_succ_apply']
    exact ih.step hroot (visit_next _)

/-! ### Expansions -/

/-- No set has been expanded twice: each one has a height by now, or is pending with a mark. -/
structure Tally (root : FuzzySet τ) (w : HeightWalk τ) (expanded : List (FuzzySet τ)) : Prop where
  composite : ∀ t ∈ expanded, t ∈ root.nodes ∧ t.operands ≠ []
  kept : ∀ t ∈ expanded, w.heights.contains t.key = true ∨ (t, true) ∈ w.pending
  nodup : (expanded.map FuzzySet.key).Nodup

variable {expanded : List (FuzzySet τ)} {rest : List (FuzzySet τ × Bool)}
  {heights : Std.HashMap Nat Nat}

/-- A set without a height that is visited unmarked has not been expanded before: it would stand
before itself. -/
theorem Tally.fresh (hroot : root.Identified) (hs : Sound root ⟨(t, false) :: rest, heights⟩)
    (h : Tally root ⟨(t, false) :: rest, heights⟩ expanded)
    (hunknown : heights.contains t.key = false) : t.key ∉ expanded.map FuzzySet.key := by
  rw [List.mem_map]
  rintro ⟨u, hu, hkey⟩
  obtain rfl := hroot u (h.composite u hu).1 t (hs.nodes (t, false) (.head _)) hkey
  rcases h.kept u hu with hknown | hpending
  · rw [hunknown] at hknown
    cases hknown
  · rcases List.mem_cons.mp hpending with hhead | hbehind
    · cases hhead
    · exact Nat.lt_irrefl _ ((List.pairwise_cons.mp hs.ordered).1 (u, true) hbehind rfl)

/-- An expanded set that was visited last has a height now. -/
theorem known_or_pending {u : FuzzySet τ} {marked : Bool} {heights' : Std.HashMap Nat Nat}
    (h : heights.contains u.key = true ∨ (u, true) ∈ (t, marked) :: rest)
    (hheights : ∀ k, heights.contains k = true ∨ k = t.key → heights'.contains k = true) :
    heights'.contains u.key = true ∨ (u, true) ∈ rest := by
  rcases h with hknown | hpending
  · exact .inl (hheights u.key (.inl hknown))
  · rcases List.mem_cons.mp hpending with hhead | hbehind
    · cases hhead
      exact .inl (hheights _ (.inr rfl))
    · exact .inr hbehind

theorem Tally.step (hroot : root.Identified) (hs : Sound root w) (h : Tally root w expanded)
    {more : Option (FuzzySet τ)} (hvisit : Visit w w' more) :
    Tally root w' (expanded ++ more.toList) := by
  obtain ⟨hcomposite, hkept, hnodup⟩ := h
  cases hvisit with
  | ended =>
    rw [Option.toList_none, List.append_nil]
    exact ⟨hcomposite, hkept, hnodup⟩
  | @known t _ _ heights hknown =>
    rw [Option.toList_none, List.append_nil]
    have hheights : ∀ k, heights.contains k = true ∨ k = t.key → heights.contains k = true := by
      rintro k (hk | rfl)
      · exact hk
      · exact hknown
    exact ⟨hcomposite, fun u hu => known_or_pending (hkept u hu) hheights, hnodup⟩
  | settle hready =>
    rw [Option.toList_none, List.append_nil]
    refine ⟨hcomposite, fun u hu => known_or_pending (hkept u hu) ?_, hnodup⟩
    exact fun k hk => contains_insert_iff.mpr hk
  | @expand t rest heights hunknown hoperands =>
    have hfresh := Tally.fresh hroot hs ⟨hcomposite, hkept, hnodup⟩ hunknown
    rw [Option.toList_some]
    refine ⟨fun u hu => ?_, fun u hu => ?_, ?_⟩
    · rcases List.mem_append.mp hu with hu | hu
      · exact hcomposite u hu
      · rw [List.mem_singleton.mp hu]
        exact ⟨hs.nodes (t, false) (.head _), hoperands⟩
    · rcases List.mem_append.mp hu with hu | hu
      · refine (hkept u hu).imp_right fun hpending => List.mem_append_right _ ?_
        rcases List.mem_cons.mp hpending with hhead | hbehind
        · cases hhead
        · exact .tail _ hbehind
      · rw [List.mem_singleton.mp hu]
        exact .inr (List.mem_append_right _ (.head _))
    · rw [List.map_append, List.nodup_append]
      refine ⟨hnodup, List.nodup_singleton _, ?_⟩
      rintro k hk k' hk' rfl
      rw [List.map_singleton, List.mem_singleton] at hk'
      exact hfresh (hk' ▸ hk)

theorem expansions_succ (w : HeightWalk τ) (n : Nat) :
    w.expansions (n + 1) = w.expansions n ++ (next^[n] w).expanding?.toList := by
  rw [expansions, List.range_succ, List.filterMap_append]
  congr 1

theorem tally_iterate (hroot : root.Identified) (n : Nat) :
    Tally root (next^[n] (start root)) ((start root).expansions n) := by
  induction n with
  | zero => exact ⟨nofun, nofun, List.nodup_nil⟩
  | succ n ih =>
    rw [Function.iterate_succ_apply', expansions_succ]
    exact ih.step hroot (sound_iterate hroot n) (visit_next _)

theorem length_unknownOperands_le (heights : Std.HashMap Nat Nat) (t : FuzzySet τ) :
    (unknownOperands heights t).length ≤ t.operands.length := by
  rw [unknownOperands, List.length_map, List.length_reverse]
  exact List.length_filter_le _ _

/-- A visit takes one set off; an expansion puts it back, with operands before it. -/
theorem length_visit {more : Option (FuzzySet τ)} (h : Visit w w' more)
    (hpending : w.pending ≠ []) :
    w'.pending.length + 1 ≤
      w.pending.length + more.toList.length + (more.toList.flatMap FuzzySet.operands).length := by
  cases h with
  | ended => exact absurd rfl hpending
  | known hknown => exact Nat.le_refl _
  | settle hready => exact Nat.le_refl _
  | @expand t rest heights hunknown hcomposite =>
    have hle := length_unknownOperands_le heights t
    rw [Option.toList_some, List.flatMap_singleton, List.length_append, List.length_cons,
      List.length_cons, List.length_singleton]
    omega

theorem length_iterate (n : Nat) (h : ∀ i < n, (next^[i] w).pending ≠ []) :
    n + (next^[n] w).pending.length ≤ w.pending.length + (w.expansions n).length +
      ((w.expansions n).flatMap FuzzySet.operands).length := by
  induction n with
  | zero => exact Nat.le_of_eq (Nat.zero_add _)
  | succ n ih =>
    have hbefore := ih fun i hi => h i (Nat.lt_succ_of_lt hi)
    have hvisit := length_visit (visit_next (next^[n] w)) (h n (Nat.lt_succ_self n))
    rw [Function.iterate_succ_apply', expansions_succ, List.length_append, List.flatMap_append,
      List.length_append]
    omega

/-! ### The end of the walk -/

theorem exists_iterate_over (pending : List (FuzzySet τ × Bool)) (heights : Std.HashMap Nat Nat) :
    ∃ n, (∀ i < n, (next^[i] ⟨pending, heights⟩).pending ≠ []) ∧
      (next^[n] ⟨pending, heights⟩).pending = [] ∧
      settle pending heights = (next^[n] ⟨pending, heights⟩).heights := by
  induction pending, heights using settle.induct with
  | case1 heights =>
    refine ⟨0, fun i hi => absurd hi (Nat.not_lt_zero i), rfl, ?_⟩
    rw [settle]
    rfl
  | case2 heights s expanded rest next ih =>
    obtain ⟨n, hrunning, hover, hheights⟩ := ih
    refine ⟨n + 1, fun i hi => ?_, hover, ?_⟩
    · cases i with
      | zero => exact List.cons_ne_nil _ _
      | succ i => exact hrunning i (Nat.lt_of_succ_lt_succ hi)
    · rw [settle]
      exact hheights

/-- What the walk from a set does in so many visits, each of which takes one pending set off. -/
structure Finishes (s : FuzzySet τ) (visits : Nat) : Prop where
  running : ∀ i < visits, (next^[i] (start s)).pending ≠ []
  ended : (next^[visits] (start s)).pending = []
  answer : (next^[visits] (start s)).heights[s.key]? = some s.depth
  operands_known : ∀ i t, (next^[i] (start s)).settling? = some t →
    ∀ o ∈ t.operands, (next^[i] (start s)).heights[o.key]? = some o.depth
  composite : ∀ t ∈ (start s).expansions visits, t ∈ s.composites
  once : (((start s).expansions visits).map FuzzySet.key).Nodup
  visits_le : visits ≤ 1 + s.composites.length + s.references.length

/-- At the end, the height of the root is in the table. -/
theorem Sound.answer (hs : Sound root w) (hover : w.pending = []) :
    w.heights[root.key]? = some root.height := by
  have hknown := hs.ready
  rw [hover] at hknown
  exact hs.getElem?_eq root.self_mem_nodes hknown

theorem head_of_settling? (h : w.settling? = some t) :
    ∃ expanded rest, w.pending = (t, expanded) :: rest ∧ (expanded = true ∨ t.operands = []) := by
  obtain ⟨pending, heights⟩ := w
  cases pending with
  | nil => cases h
  | cons first rest =>
    obtain ⟨u, expanded⟩ := first
    simp only [settling?, Option.ite_none_right_eq_some, Bool.and_eq_true, Bool.or_eq_true,
      List.isEmpty_iff] at h
    obtain ⟨⟨-, hready⟩, hu⟩ := h
    cases hu
    exact ⟨expanded, rest, rfl, hready⟩

/-- No height of an operand is missing where it is looked up. -/
theorem Sound.operands_of_settling (hs : Sound root w) (h : w.settling? = some t) :
    ∀ o ∈ t.operands, o ∈ root.nodes ∧ w.heights[o.key]? = some o.height := by
  obtain ⟨expanded, rest, hpending, hready⟩ := head_of_settling? h
  obtain ⟨pending, heights⟩ := w
  obtain rfl : pending = (t, expanded) :: rest := hpending
  intro o ho
  have hnode := FuzzySet.mem_nodes_of_mem_operands (hs.nodes _ (.head _)) ho
  exact ⟨hnode, hs.getElem?_eq hnode (hs.operands_known hready o ho)⟩

end HeightWalk

namespace FuzzySet

open HeightWalk

variable {τ : Type} {s : FuzzySet τ}

theorem depth_eq_height (h : s.Identified) : s.depth = s.height := by
  obtain ⟨n, -, hover, hheights⟩ := exists_iterate_over [(s, false)] ∅
  have hanswer := (sound_iterate h n).answer hover
  rw [depth, finish, start, hheights, Std.HashMap.getD_eq_getD_getElem?]
  exact congrArg (Option.getD · 0) hanswer

theorem finishes_of_identified (h : s.Identified) : ∃ visits, Finishes s visits := by
  obtain ⟨visits, hrunning, hover, -⟩ := exists_iterate_over [(s, false)] ∅
  have hdepth {t : FuzzySet τ} (ht : t ∈ s.nodes) : t.depth = t.height :=
    depth_eq_height (h.of_mem_nodes ht)
  obtain ⟨hcomposite, -, hnodup⟩ := tally_iterate h visits
  have hnodes : ∀ t ∈ (start s).expansions visits, t ∈ s.nodes ∧ t.isPrimitive = false := by
    intro t ht
    obtain ⟨hmem, hoperands⟩ := hcomposite t ht
    exact ⟨hmem, Bool.eq_false_iff.mpr (mt isPrimitive_iff.mp hoperands)⟩
  have hsub := h.subperm_composites hnodup hnodes
  refine ⟨visits, hrunning, hover, ?_, ?_, fun t ht => hsub.subset ht, hnodup, ?_⟩
  · rw [hdepth s.self_mem_nodes]
    exact (sound_iterate h visits).answer hover
  · intro i t hsettling o ho
    obtain ⟨hnode, hheight⟩ := (sound_iterate h i).operands_of_settling hsettling o ho
    rw [hheight, hdepth hnode]
  · have hlength := length_iterate visits hrunning
    have hreferences := length_flatMap_le_of_subperm hsub
    calc visits ≤ visits + (next^[visits] (start s)).pending.length := Nat.le_add_right _ _
      _ ≤ 1 + ((start s).expansions visits).length +
          (((start s).expansions visits).flatMap operands).length := hlength
      _ ≤ 1 + s.composites.length + s.references.length :=
        Nat.add_le_add (Nat.add_le_add_left hsub.length_le 1) hreferences

variable [ClassHierarchy τ] {sets : List (FuzzySet τ)}

/-- **The depth of a set.** Of the sets that calls have made, with whatever sharing, a primitive set
has depth one, and a composite set has one more than the deepest of its operands. That is the number
of sets on a longest path to a leaf. The walk ends, finds every height that it looks up, expands no
composite set twice, and visits at most one set more than there are composite sets and places of
operands. -/
theorem depth_of_population (h : Population sets) (hs : s ∈ sets) :
    (s.isPrimitive = true → s.depth = 1) ∧
      s.depth = 1 + (s.operands.map depth).foldl max 0 ∧
      (∃ path ∈ s.paths, path.length = s.depth) ∧ (∀ path ∈ s.paths, path.length ≤ s.depth) ∧
      ∃ visits, Finishes s visits := by
  have hidentified := h.identified hs
  have hdepth := depth_eq_height hidentified
  have hoperands : s.operands.map depth = s.operands.map height := by
    apply List.map_congr_left
    intro o ho
    exact depth_eq_height (h.identified (h.operands_mem s hs o ho))
  have hone : s.depth = 1 + (s.operands.map depth).foldl max 0 := by
    rw [hdepth, hoperands, height_eq]
  refine ⟨fun hprimitive => ?_, hone, ?_, fun path hpath => ?_, finishes_of_identified hidentified⟩
  · rw [hone, isPrimitive_iff.mp hprimitive]
    rfl
  · rw [hdepth]
    exact s.exists_path_of_height
  · rw [hdepth]
    exact length_le_height hpath

/-! ### A set combined with itself -/

/-- The union of a set with itself, made again and again. -/
def doubled : Nat → FuzzySet ElementType
  | 0 => primitive ⟨0, .absent, some .float⟩ .identity
  | n + 1 => binary ⟨n + 1, .absent, some .float⟩ ⟨.union, rfl⟩ (doubled n) (doubled n)

theorem label_doubled (n : Nat) : (doubled n).label = ⟨n, .absent, some .float⟩ := by
  cases n <;> rfl

theorem eq_of_mem_operands_doubled {n : Nat} {o : FuzzySet ElementType}
    (h : o ∈ (doubled (n + 1)).operands) : o = doubled n := by
  simpa [doubled, operands] using h

theorem result_combine_doubled (n : Nat) :
    (combine (n + 1) (.set (doubled n)) (.operator .union) (.set (doubled n)) .absent
      .absent).result = .ok (doubled (n + 1)) := by
  have htype : (doubled n).elementType = some .float := by rw [elementType, label_doubled]
  have hname : (doubled n).name = .absent := by rw [name, label_doubled]
  refine result_combine_eq_ok_iff.mpr ⟨?_, exists_describe_iff.mpr ?_⟩
  · refine (result_makeComposite_binary rfl).mpr ⟨some .float, ?_, rfl⟩
    rw [htype]
    rfl
  · refine labelled_of_optionalText (.inl rfl) fun o ho => .inl ?_
    rw [eq_of_mem_operands_doubled ho, hname]

theorem population_doubled (n : Nat) :
    ∃ sets, Population sets ∧ doubled n ∈ sets ∧ ∀ u ∈ sets, u.key ≤ n := by
  induction n with
  | zero =>
    refine ⟨[doubled 0], .primitive 0 (.function .identity) (.tag .float) .absent .nil nofun rfl,
      .head _, fun u hu => ?_⟩
    rw [List.mem_singleton.mp hu]
    exact Nat.le_refl 0
  | succ n ih =>
    obtain ⟨sets, hsets, hmem, hkeys⟩ := ih
    have hnew : ∀ u ∈ sets, u.key ≠ n + 1 := by
      intro u hu
      exact Nat.ne_of_lt (Nat.lt_succ_of_le (hkeys u hu))
    refine ⟨doubled (n + 1) :: sets, .combine (n + 1) _ _ _ _ _ hsets hnew ?_ ?_
      (result_combine_doubled n), .head _, fun u hu => ?_⟩
    · exact fun a ha => Operand.set.inj ha ▸ hmem
    · exact fun b hb => Operand.set.inj hb ▸ hmem
    · rcases List.mem_cons.mp hu with rfl | hu
      · exact Nat.le_refl _
      · exact Nat.le_succ_of_le (hkeys u hu)

theorem length_paths_doubled (n : Nat) : (doubled n).paths.length = 2 ^ n := by
  induction n with
  | zero => rfl
  | succ n ih =>
    rw [doubled, paths, List.length_map, List.length_append, ih, Nat.pow_succ]
    omega

theorem height_doubled (n : Nat) : (doubled n).height = n + 1 := by
  induction n with
  | zero => rfl
  | succ n ih => rw [doubled, height, ih, Nat.max_self]

theorem key_le_of_mem_nodes_doubled {n : Nat} {t : FuzzySet ElementType}
    (ht : t ∈ (doubled n).nodes) : t.key ≤ n ∧ (t.isPrimitive = false → 0 < t.key) := by
  induction n with
  | zero =>
    rw [List.mem_singleton.mp ht]
    exact ⟨Nat.le_refl 0, nofun⟩
  | succ n ih =>
    rcases mem_nodes_iff.mp ht with rfl | ⟨o, ho, ht⟩
    · exact ⟨Nat.le_refl _, fun _ => Nat.succ_pos n⟩
    · rw [eq_of_mem_operands_doubled ho] at ht
      exact ⟨Nat.le_succ_of_le (ih ht).1, (ih ht).2⟩

theorem length_composites_doubled (n : Nat) : (doubled n).composites.length ≤ n := by
  have hsubset : (doubled n).composites.map key ⊆ (List.range n).map Nat.succ := by
    intro k hk
    obtain ⟨t, ht, rfl⟩ := List.mem_map.mp hk
    obtain ⟨hnode, hcomposite⟩ := of_mem_composites ht
    obtain ⟨hle, hpos⟩ := key_le_of_mem_nodes_doubled hnode
    have hpred := Nat.succ_pred_eq_of_pos (hpos hcomposite)
    exact List.mem_map.mpr ⟨t.key.pred, List.mem_range.mpr (by omega), hpred⟩
  have hle := (List.subperm_of_subset (nodup_keys_composites (doubled n)) hsubset).length_le
  rwa [List.length_map, List.length_map, List.length_range] at hle

/-- More than a million paths, and at most 61 visits. -/
theorem depth_of_population_doubled :
    (doubled 20).depth = 21 ∧ (doubled 20).paths.length = 2 ^ 20 ∧
      ∃ visits, Finishes (doubled 20) visits ∧ visits ≤ 61 := by
  obtain ⟨sets, hsets, hmem, -⟩ := population_doubled 20
  obtain ⟨-, -, ⟨path, hpath, hlongest⟩, hlength, visits, hvisits⟩ := depth_of_population hsets hmem
  have hdepth : (doubled 20).depth = (doubled 20).height :=
    depth_eq_height (hsets.identified hmem)
  refine ⟨hdepth.trans (height_doubled 20), length_paths_doubled 20, visits, hvisits, ?_⟩
  have hle := hvisits.visits_le
  have hcomposites := length_composites_doubled 20
  have hreferences := length_flatMap_operands_le (doubled 20).composites
  rw [references] at hle
  omega

end FuzzySet

end FuzzyAlgebra

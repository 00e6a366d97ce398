import FuzzyAlgebra.FuzzySet.Depth
import FuzzyAlgebra.Proofs.FuzzySet.Combine
import FuzzyAlgebra.Proofs.FuzzySet.Traversal
import Mathlib.Data.List.Flatten
import Mathlib.Data.List.Nodup
import Mathlib.Data.List.Pairwise
import Mathlib.Data.List.Perm.Subperm

/-!
# The graph below a set

A set unfolds into a tree, in which a shared operand occurs many times. The key tells that all these
occurrences are one set. The height of the graph is the number of sets on a longest path, and an
operand has less height than any set over it, so that no set lies below itself.
-/

namespace FuzzyAlgebra.FuzzySet

variable {τ : Type} {s t o : FuzzySet τ}

/-! ### Heights -/

theorem height_eq (s : FuzzySet τ) : s.height = 1 + (s.operands.map height).foldl max 0 := by
  cases s with
  | primitive label function => rfl
  | unary label operation operand =>
    simp only [height, operands, List.map, List.foldl]
    omega
  | binary label operation first second =>
    simp only [height, operands, List.map, List.foldl]
    omega

theorem height_lt_of_mem_operands (h : o ∈ s.operands) : o.height < s.height := by
  cases s with
  | primitive label function => cases h
  | unary label operation operand =>
    rw [List.mem_singleton.mp h, height]
    omega
  | binary label operation first second =>
    rw [height]
    rcases List.mem_cons.mp h with rfl | h
    · omega
    · rw [List.mem_singleton.mp h]
      omega

theorem length_le_height {path : List (FuzzySet τ)} (h : path ∈ s.paths) :
    path.length ≤ s.height := by
  induction s generalizing path with
  | primitive label function =>
    rw [List.mem_singleton.mp h]
    exact Nat.le_refl 1
  | unary label operation operand ih =>
    obtain ⟨below, hbelow, rfl⟩ := List.mem_map.mp h
    exact Nat.succ_le_succ (ih hbelow)
  | binary label operation first second ihfirst ihsecond =>
    obtain ⟨below, hbelow, rfl⟩ := List.mem_map.mp h
    apply Nat.succ_le_succ
    rcases List.mem_append.mp hbelow with hfirst | hsecond
    · exact Nat.le_trans (ihfirst hfirst) (Nat.le_max_left _ _)
    · exact Nat.le_trans (ihsecond hsecond) (Nat.le_max_right _ _)

theorem exists_path_of_height (s : FuzzySet τ) : ∃ path ∈ s.paths, path.length = s.height := by
  induction s with
  | primitive label function => exact ⟨_, List.mem_singleton_self _, rfl⟩
  | unary label operation operand ih =>
    obtain ⟨below, hbelow, hlength⟩ := ih
    exact ⟨_, List.mem_map_of_mem hbelow, congrArg Nat.succ hlength⟩
  | binary label operation first second ihfirst ihsecond =>
    have hlongest : ∃ below ∈ first.paths ++ second.paths,
        below.length = max first.height second.height := by
      rcases Nat.le_total first.height second.height with hle | hle
      · obtain ⟨below, hbelow, hlength⟩ := ihsecond
        exact ⟨below, List.mem_append_right _ hbelow, by rw [hlength, Nat.max_eq_right hle]⟩
      · obtain ⟨below, hbelow, hlength⟩ := ihfirst
        exact ⟨below, List.mem_append_left _ hbelow, by rw [hlength, Nat.max_eq_left hle]⟩
    obtain ⟨below, hbelow, hlength⟩ := hlongest
    exact ⟨_, List.mem_map_of_mem hbelow, congrArg Nat.succ hlength⟩

/-! ### Nodes -/

theorem isPrimitive_iff : s.isPrimitive = true ↔ s.operands = [] := by
  cases s <;> simp [isPrimitive, operands]

theorem operands_induction {P : FuzzySet τ → Prop} (h : ∀ s, (∀ o ∈ s.operands, P o) → P s)
    (s : FuzzySet τ) : P s := by
  induction s with
  | primitive label function => exact h _ nofun
  | unary label operation operand ih =>
    apply h
    intro o ho
    rw [List.mem_singleton.mp ho]
    exact ih
  | binary label operation first second ihfirst ihsecond =>
    apply h
    intro o ho
    rcases List.mem_cons.mp ho with rfl | ho
    · exact ihfirst
    · rw [List.mem_singleton.mp ho]
      exact ihsecond

theorem mem_nodes_iff : t ∈ s.nodes ↔ t = s ∨ ∃ o ∈ s.operands, t ∈ o.nodes := by
  cases s with
  | primitive label function => simp [nodes, operands]
  | unary label operation operand => simp [nodes, operands]
  | binary label operation first second => simp [nodes, operands]

theorem self_mem_nodes (s : FuzzySet τ) : s ∈ s.nodes := mem_nodes_iff.mpr (.inl rfl)

theorem mem_nodes_of_mem_operands (ht : t ∈ s.nodes) (ho : o ∈ t.operands) : o ∈ s.nodes := by
  induction s using operands_induction with
  | h s ih =>
    rcases mem_nodes_iff.mp ht with rfl | ⟨below, hbelow, ht⟩
    · exact mem_nodes_iff.mpr (.inr ⟨o, ho, self_mem_nodes o⟩)
    · exact mem_nodes_iff.mpr (.inr ⟨below, hbelow, ih below hbelow ht⟩)

theorem nodes_subset {sets : List (FuzzySet τ)}
    (hclosed : ∀ t ∈ sets, ∀ o ∈ t.operands, o ∈ sets) (hs : s ∈ sets) : s.nodes ⊆ sets := by
  induction s using operands_induction with
  | h s ih =>
    intro t ht
    rcases mem_nodes_iff.mp ht with rfl | ⟨o, ho, ht⟩
    · exact hs
    · exact ih o ho (hclosed s hs o ho) ht

/-- Sets of the graph with one key are one set. -/
def Identified (s : FuzzySet τ) : Prop := ∀ t ∈ s.nodes, ∀ u ∈ s.nodes, t.key = u.key → t = u

/-- The composite sets of the graph, each of them once. -/
def composites (s : FuzzySet τ) : List (FuzzySet τ) :=
  (s.nodes.filter fun t => !t.isPrimitive).pwFilter fun t u => t.key ≠ u.key

/-- The places in which composite sets of the graph hold operands. -/
def references (s : FuzzySet τ) : List (FuzzySet τ) := s.composites.flatMap operands

theorem of_mem_composites (h : t ∈ s.composites) : t ∈ s.nodes ∧ t.isPrimitive = false := by
  obtain ⟨hnode, hcomposite⟩ := List.mem_filter.mp (List.pwFilter_subset _ h)
  exact ⟨hnode, by simpa using hcomposite⟩

theorem Identified.mem_composites (h : s.Identified) (ht : t ∈ s.nodes)
    (hcomposite : t.isPrimitive = false) : t ∈ s.composites := by
  have hmem : t ∈ s.nodes.filter fun t => !t.isPrimitive :=
    List.mem_filter.mpr ⟨ht, by rw [hcomposite, Bool.not_false]⟩
  -- otherwise its key would differ from all keys, its own included
  by_contra hnot
  have hdiffer : ∀ u ∈ s.composites, t.key ≠ u.key := by
    intro u hu hkey
    exact hnot (h t ht u (of_mem_composites hu).1 hkey ▸ hu)
  have hall := (List.forall_mem_pwFilter (fun {x y z} hxz => by
    by_contra hboth
    simp only [not_or, not_not] at hboth
    exact hxz (hboth.1.trans hboth.2)) t _).mp hdiffer
  exact hall t hmem rfl

/-- Composite sets of the graph with keys of their own are some of its composites. -/
theorem Identified.subperm_composites (h : s.Identified) {sets : List (FuzzySet τ)}
    (hkeys : (sets.map key).Nodup) (hnodes : ∀ t ∈ sets, t ∈ s.nodes ∧ t.isPrimitive = false) :
    sets.Subperm s.composites := by
  apply List.subperm_of_subset (List.Nodup.of_map key hkeys)
  intro t ht
  exact h.mem_composites (hnodes t ht).1 (hnodes t ht).2

theorem Identified.of_mem_nodes (h : s.Identified) (ht : t ∈ s.nodes) : t.Identified := by
  have hsubset : t.nodes ⊆ s.nodes := nodes_subset (fun u hu o => mem_nodes_of_mem_operands hu) ht
  intro u hu v hv hkey
  exact h u (hsubset hu) v (hsubset hv) hkey

theorem nodup_keys_composites (s : FuzzySet τ) : (s.composites.map key).Nodup :=
  List.pairwise_map.mpr (List.pairwise_pwFilter _)

theorem length_flatMap_operands_le (sets : List (FuzzySet τ)) :
    (sets.flatMap operands).length ≤ 2 * sets.length := by
  have hoperands (s : FuzzySet τ) : s.operands.length ≤ 2 := by
    cases s <;> simp [operands]
  induction sets with
  | nil => exact Nat.le_refl 0
  | cons first rest ih =>
    have hfirst := hoperands first
    rw [List.flatMap_cons, List.length_append, List.length_cons]
    omega

theorem length_flatMap_le_of_subperm {sets sets' : List (FuzzySet τ)} (h : sets.Subperm sets') :
    (sets.flatMap operands).length ≤ (sets'.flatMap operands).length := by
  obtain ⟨some, hperm, hsub⟩ := h
  calc (sets.flatMap operands).length = (some.flatMap operands).length :=
        (hperm.flatMap_right operands).length_eq.symm
    _ ≤ (sets'.flatMap operands).length := (hsub.flatMap operands).length_le

/-! ### Sets that calls have made -/

variable [ClassHierarchy τ]

/-- What calls of `primitive` and `combine` have made so far. Every call gets a new key, and the
operands it is given exist already. -/
inductive Population : List (FuzzySet τ) → Prop
  | nil : Population []
  | primitive (key : Nat) (function : FunctionArgument) (tag : TagArgument τ) (name : Value)
    {made : FuzzySet τ} {sets : List (FuzzySet τ)} : Population sets →
      (∀ u ∈ sets, u.key ≠ key) → (ofFunction key function tag name).result = .ok made →
      Population (made :: sets)
  | combine (key : Nat) (first : Operand τ) (operator : Value) (second : Operand τ)
    (threshold name : Value) {made : FuzzySet τ} {sets : List (FuzzySet τ)} : Population sets →
      (∀ u ∈ sets, u.key ≠ key) → (∀ a, first = .set a → a ∈ sets) →
      (∀ b, second = .set b → b ∈ sets) →
      (FuzzySet.combine key first operator second threshold name).result = .ok made →
      Population (made :: sets)

variable {sets : List (FuzzySet τ)}

theorem Population.operands_mem (h : Population sets) : ∀ u ∈ sets, ∀ o ∈ u.operands, o ∈ sets := by
  induction h with
  | nil => exact nofun
  | primitive _ _ _ _ _ _ hmade ih =>
    obtain ⟨tag, f, rfl⟩ := exists_of_ofFunction hmade
    intro u hu o ho
    rcases List.mem_cons.mp hu with rfl | hu
    · cases ho
    · exact .tail _ (ih u hu o ho)
  | combine _ _ _ _ _ _ _ _ hfirst hsecond hmade ih =>
    intro u hu o ho
    rcases List.mem_cons.mp hu with rfl | hu
    · apply List.mem_cons_of_mem
      rcases cases_of_combine hmade with ⟨a, operation, ha, rfl⟩ |
        ⟨a, b, tag, operation, ha, hb, -, rfl⟩
      · rw [List.mem_singleton.mp ho]
        exact hfirst a ha
      · rcases List.mem_cons.mp ho with rfl | ho
        · exact hfirst o ha
        · rw [List.mem_singleton.mp ho]
          exact hsecond b hb
    · exact .tail _ (ih u hu o ho)

theorem Population.nodup_keys (h : Population sets) : (sets.map key).Nodup := by
  induction h with
  | nil => exact List.nodup_nil
  | primitive key _ _ _ _ hnew hmade ih =>
    obtain ⟨tag, f, rfl⟩ := exists_of_ofFunction hmade
    refine List.nodup_cons.mpr ⟨?_, ih⟩
    rw [List.mem_map]
    rintro ⟨u, hu, hkey⟩
    exact hnew u hu hkey
  | combine key _ _ _ _ _ _ hnew _ _ hmade ih =>
    refine List.nodup_cons.mpr ⟨?_, ih⟩
    rw [List.mem_map]
    rintro ⟨u, hu, hkey⟩
    rcases cases_of_combine hmade with ⟨a, operation, -, rfl⟩ | ⟨a, b, tag, operation, -, -, -, rfl⟩
    · exact hnew u hu hkey
    · exact hnew u hu hkey

theorem Population.identified (h : Population sets) (hs : s ∈ sets) : s.Identified := by
  have hsubset : s.nodes ⊆ sets := nodes_subset h.operands_mem hs
  intro t ht u hu hkey
  exact List.inj_on_of_nodup_map h.nodup_keys (hsubset ht) (hsubset hu) hkey

end FuzzyAlgebra.FuzzySet

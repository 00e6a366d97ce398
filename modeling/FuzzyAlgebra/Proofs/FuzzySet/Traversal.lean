import FuzzyAlgebra.Proofs.FuzzySet.Evaluation
import FuzzyAlgebra.Proofs.FuzzySet.Laziness

/-!
# The walk of a query

A query goes down every path of the graph, from the first operand to the second, and calls the
function at its end. It stops at the first leaf that fails, whose fault it returns as it is. If none
fails, the degrees of the leaves are combined from the leaves up, whatever else happened on the way.
-/

namespace FuzzyAlgebra.FuzzySet

variable {τ : Type} {s : FuzzySet τ} {x : Value}

/-- The ways from the set down to its leaves, from the first operand to the second. -/
def paths : FuzzySet τ → List (List (FuzzySet τ))
  | primitive label function => [[primitive label function]]
  | unary label operation operand => operand.paths.map (unary label operation operand :: ·)
  | binary label operation first second =>
    (first.paths ++ second.paths).map (binary label operation first second :: ·)

/-- The degree of the graph, if its leaves have the given degrees. -/
def valuation (u : FuzzySet τ → Degree) : FuzzySet τ → Degree
  | primitive label function => u (primitive label function)
  | unary _ operation operand => operation.degree (operand.valuation u)
  | binary _ operation first second =>
    operation.degree (first.valuation u) (second.valuation u)

/-- The degree of an element in a leaf, zero where it has none. -/
def degreeAt (x : Value) (leaf : FuzzySet τ) : Degree :=
  match (leaf.membership x).result with
  | .ok d => d
  | .error _ => ⟨0, Binary64.zero_le_zero, Binary64.zero_le_one⟩

/-- What happens when the sets are queried one after the other. -/
def visits (sets : List (FuzzySet τ)) (x : Value) : List Event :=
  sets.flatMap fun s => (s.membership x).events

theorem visits_append (before after : List (FuzzySet τ)) (x : Value) :
    visits (before ++ after) x = visits before x ++ visits after x :=
  List.flatMap_append

theorem result_eq_degreeAt {leaf : FuzzySet τ} (h : ∃ d, (leaf.membership x).result = .ok d) :
    (leaf.membership x).result = .ok (degreeAt x leaf) := by
  obtain ⟨d, hd⟩ := h
  rw [degreeAt, hd]

/-! ### Leaves and paths -/

theorem paths_ne_nil {path : List (FuzzySet τ)} (h : path ∈ s.paths) : path ≠ [] := by
  cases s with
  | primitive label function =>
    rw [List.mem_singleton.mp h]
    exact List.cons_ne_nil _ _
  | unary label operation operand =>
    obtain ⟨below, -, rfl⟩ := List.mem_map.mp h
    exact List.cons_ne_nil _ _
  | binary label operation first second =>
    obtain ⟨below, -, rfl⟩ := List.mem_map.mp h
    exact List.cons_ne_nil _ _

theorem map_getLast?_cons (node : FuzzySet τ) {paths : List (List (FuzzySet τ))}
    (h : ∀ path ∈ paths, path ≠ []) :
    (paths.map (node :: ·)).map List.getLast? = paths.map List.getLast? := by
  rw [List.map_map]
  refine List.map_congr_left fun path hpath => ?_
  obtain ⟨next, rest, rfl⟩ := List.exists_cons_of_ne_nil (h path hpath)
  rfl

/-- Every occurrence of a leaf is the end of one path, in the same order. -/
theorem map_getLast?_paths (s : FuzzySet τ) : s.paths.map List.getLast? = s.leaves.map some := by
  induction s with
  | primitive label function => rfl
  | unary label operation operand ih =>
    rw [paths, map_getLast?_cons _ fun _ => paths_ne_nil, ih]
    rfl
  | binary label operation first second ihfirst ihsecond =>
    have hne : ∀ path ∈ first.paths ++ second.paths, path ≠ [] := by
      intro path hpath
      rcases List.mem_append.mp hpath with hfirst | hsecond
      · exact paths_ne_nil hfirst
      · exact paths_ne_nil hsecond
    rw [paths, map_getLast?_cons _ hne, List.map_append, ihfirst, ihsecond, leaves,
      List.map_append]

theorem exists_primitive_of_mem_leaves {leaf : FuzzySet τ} (h : leaf ∈ s.leaves) :
    ∃ label function, leaf = primitive label function := by
  induction s with
  | primitive label function => exact ⟨label, function, List.mem_singleton.mp h⟩
  | unary label operation operand ih => exact ih h
  | binary label operation first second ihfirst ihsecond =>
    exact (List.mem_append.mp h).elim ihfirst ihsecond

/-! ### One query of a leaf -/

theorem calls_leafMembership (label : Label τ) (function : MembershipFunction) (x : Value) :
    (leafMembership label function x).calls = [label.key] := by
  refine Traced.calls_bind_of_quiet (.called label.key) fun _ => ?_
  refine (Traced.quiet_ofExcept _).bind fun result => ?_
  split
  · exact Traced.quiet_pure _
  · split
    · exact Traced.quiet_mishap _
    · exact Traced.quiet_failWith _ _ _ _
  · exact Traced.quiet_stop _

theorem calls_of_mem_leaves {leaf : FuzzySet τ} (h : leaf ∈ s.leaves) (x : Value) :
    (leaf.membership x).calls = [leaf.key] := by
  obtain ⟨label, function, rfl⟩ := exists_primitive_of_mem_leaves h
  exact calls_leafMembership label function x

theorem filterMap_key?_visits {sets : List (FuzzySet τ)} (h : ∀ l ∈ sets, l ∈ s.leaves)
    (x : Value) : (visits sets x).filterMap Event.key? = sets.map key := by
  induction sets with
  | nil => rfl
  | cons leaf rest ih =>
    have hleaf : (leaf.membership x).events.filterMap Event.key? = [leaf.key] :=
      calls_of_mem_leaves (h leaf List.mem_cons_self) x
    have hrest := ih fun l hl => h l (List.mem_cons_of_mem _ hl)
    rw [visits, List.flatMap_cons, List.filterMap_append, hleaf, List.map_cons]
    exact congrArg (leaf.key :: ·) hrest

/-! ### The walk -/

/-- Where no leaf fails, all are visited, and their degrees are combined. -/
theorem membership_of_leaves {u : FuzzySet τ → Degree}
    (h : ∀ leaf ∈ s.leaves, (leaf.membership x).result = .ok (u leaf)) :
    s.membership x = ⟨.ok (s.valuation u), visits s.leaves x⟩ := by
  induction s with
  | primitive label function =>
    refine Traced.ext (h _ List.mem_cons_self) ?_
    exact (List.flatMap_singleton _ _).symm
  | unary label operation operand ih =>
    rw [membership_unary, ih h, Traced.bind_of_ok rfl]
    exact Traced.ext rfl (List.append_nil _)
  | binary label operation first second ihfirst ihsecond =>
    have hfirst := ihfirst fun leaf hleaf => h leaf (List.mem_append_left _ hleaf)
    have hsecond := ihsecond fun leaf hleaf => h leaf (List.mem_append_right _ hleaf)
    rw [membership_binary, hfirst, Traced.bind_of_ok rfl, hsecond, Traced.bind_of_ok rfl, leaves,
      visits_append]
    exact Traced.ext rfl (congrArg (visits first.leaves x ++ ·) (List.append_nil _))

theorem result_eq_valuation (h : ∀ leaf ∈ s.leaves, ∃ d, (leaf.membership x).result = .ok d) :
    (s.membership x).result = .ok (s.valuation (degreeAt x)) := by
  rw [membership_of_leaves fun leaf hleaf => result_eq_degreeAt (h leaf hleaf)]

/-- The first leaf that fails is the last one visited, and its fault is that of the graph. -/
theorem membership_of_first_error {before after : List (FuzzySet τ)} {leaf : FuzzySet τ} {e : Fault}
    (hleaves : s.leaves = before ++ leaf :: after)
    (hbefore : ∀ l ∈ before, ∃ d, (l.membership x).result = .ok d)
    (herror : (leaf.membership x).result = .error e) :
    s.membership x = ⟨.error e, visits (before ++ [leaf]) x⟩ := by
  induction s generalizing before after with
  | primitive label function =>
    obtain ⟨rfl, rfl⟩ : before = [] ∧ leaf = primitive label function := by
      cases before with
      | nil => exact ⟨rfl, (List.cons.inj hleaves).1.symm⟩
      | cons l rest => simp [leaves] at hleaves
    refine Traced.ext herror ?_
    exact (List.flatMap_singleton _ _).symm
  | unary label operation operand ih =>
    rw [membership_unary, ih hleaves hbefore, Traced.bind_of_error rfl]
  | binary label operation first second ihfirst ihsecond =>
    rw [membership_binary]
    rw [leaves, List.append_eq_append_iff] at hleaves
    -- the leaf is one of the second operand, or else one of the first
    have hsplit : (∃ middle, before = first.leaves ++ middle ∧
        second.leaves = middle ++ leaf :: after) ∨
        ∃ rest, first.leaves = before ++ leaf :: rest := by
      rcases hleaves with ⟨middle, hbefore, hsecond⟩ | ⟨middle, hfirst, hsecond⟩
      · exact .inl ⟨middle, hbefore, hsecond⟩
      · cases middle with
        | nil => exact .inl ⟨[], by simpa using hfirst.symm, hsecond.symm⟩
        | cons l rest =>
          obtain ⟨rfl, -⟩ := List.cons.inj hsecond
          exact .inr ⟨rest, hfirst⟩
    rcases hsplit with ⟨middle, rfl, hsecond⟩ | ⟨rest, hfirst⟩
    · have hdegrees : ∀ l ∈ first.leaves, (l.membership x).result = .ok (degreeAt x l) :=
        fun l hl => result_eq_degreeAt (hbefore l (List.mem_append_left _ hl))
      have hfault := ihsecond hsecond fun l hl => hbefore l (List.mem_append_right _ hl)
      rw [membership_of_leaves hdegrees, Traced.bind_of_ok rfl, hfault, Traced.bind_of_error rfl,
        List.append_assoc, visits_append first.leaves]
    · rw [ihfirst hfirst hbefore, Traced.bind_of_error rfl]

/-- Either no set fails, or there is a first one that does. -/
theorem exists_first_error (sets : List (FuzzySet τ)) (x : Value) :
    (∀ l ∈ sets, ∃ d, (l.membership x).result = .ok d) ∨
      ∃ before leaf after e, sets = before ++ leaf :: after ∧
        (∀ l ∈ before, ∃ d, (l.membership x).result = .ok d) ∧
        (leaf.membership x).result = .error e := by
  induction sets with
  | nil => exact .inl fun l hl => absurd hl List.not_mem_nil
  | cons s rest ih =>
    cases hresult : (s.membership x).result with
    | error e => exact .inr ⟨[], s, rest, e, rfl, fun l hl => absurd hl List.not_mem_nil, hresult⟩
    | ok d =>
      have hcons : ∀ {sets : List (FuzzySet τ)},
          (∀ l ∈ sets, ∃ d, (l.membership x).result = .ok d) →
          ∀ l ∈ s :: sets, ∃ d, (l.membership x).result = .ok d := by
        intro sets hsets l hl
        rcases List.mem_cons.mp hl with rfl | hl
        · exact ⟨d, hresult⟩
        · exact hsets l hl
      rcases ih with hok | ⟨before, leaf, after, e, rfl, hbefore, herror⟩
      · exact .inl (hcons hok)
      · exact .inr ⟨s :: before, leaf, after, e, rfl, hcons hbefore, herror⟩

theorem calls_of_first_error {before after : List (FuzzySet τ)} {leaf : FuzzySet τ} {e : Fault}
    (hleaves : s.leaves = before ++ leaf :: after)
    (hbefore : ∀ l ∈ before, ∃ d, (l.membership x).result = .ok d)
    (herror : (leaf.membership x).result = .error e) :
    (s.membership x).calls = (before ++ [leaf]).map key := by
  have hvisited : ∀ l ∈ before ++ [leaf], l ∈ s.leaves := by
    intro l hl
    rw [hleaves, List.append_cons]
    exact List.mem_append_left _ hl
  rw [membership_of_first_error hleaves hbefore herror]
  exact filterMap_key?_visits hvisited x

/-- A query that fails has ended with the call of a leaf with the same fault. -/
theorem exists_last_leaf_of_error {e : Fault} (h : (s.membership x).result = .error e) :
    ∃ before leaf after, s.leaves = before ++ leaf :: after ∧
      (leaf.membership x).result = .error e ∧
      (s.membership x).calls = (before ++ [leaf]).map key := by
  rcases exists_first_error s.leaves x with hok |
    ⟨before, leaf, after, e', hleaves, hbefore, herror⟩
  · rw [result_eq_valuation hok] at h
    cases h
  · rw [membership_of_first_error hleaves hbefore herror] at h
    obtain rfl : e' = e := Except.error.inj h
    exact ⟨before, leaf, after, hleaves, herror, calls_of_first_error hleaves hbefore herror⟩

end FuzzyAlgebra.FuzzySet

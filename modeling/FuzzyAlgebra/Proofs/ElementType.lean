import FuzzyAlgebra.ElementType

/-!
# Element types form a hierarchy

Subclassing is reflexive, transitive and antisymmetric, whatever types a program declares, so
whatever holds of every lawful hierarchy holds of element types. A type is above a declared one if
it is the declared type itself or above one of its parents, and parents are smaller, so there are no
cycles.
-/

namespace FuzzyAlgebra

/-! ### Built-in types -/

namespace BuiltinType

theorem mem_all (b : BuiltinType) : b ∈ all := by
  cases b <;> decide

theorem mem_ancestors_self (b : BuiltinType) : b ∈ b.ancestors := by
  cases b <;> decide

-- Both laws are checked over the list of all types, `trans` with the third type only where the
-- first two are related.
theorem mem_ancestors_trans {a b c : BuiltinType} (hb : b ∈ a.ancestors) (hc : c ∈ b.ancestors) :
    c ∈ a.ancestors := by
  have h : ∀ a ∈ all, ∀ b ∈ a.ancestors, ∀ c ∈ b.ancestors, c ∈ a.ancestors := by decide
  exact h a (mem_all a) b hb c hc

theorem eq_of_mem_ancestors {a b : BuiltinType} (hb : b ∈ a.ancestors) (ha : a ∈ b.ancestors) :
    a = b := by
  have h : ∀ a ∈ all, ∀ b ∈ a.ancestors, a ∈ b.ancestors → a = b := by decide
  exact h a (mem_all a) b hb ha

end BuiltinType

namespace ElementType

/-- Induction over the types above a type, parents first. -/
@[elab_as_elim]
theorem induction {motive : ElementType → Prop} (builtin : ∀ b, motive (builtin b))
    (declared : ∀ key name home parents, (∀ p ∈ parents, motive p) →
      motive (declared key name home parents)) (t : ElementType) : motive t :=
  match t with
  | .builtin b => builtin b
  | .declared key name home parents =>
    declared key name home parents fun p _ => induction builtin declared p

variable {s t u : ElementType}

theorem mem_ancestorsOfAll {ts : List ElementType} :
    u ∈ ancestorsOfAll ts ↔ ∃ t ∈ ts, u ∈ t.ancestors := by
  induction ts with
  | nil => simp [ancestorsOfAll]
  | cons t ts ih => simp [ancestorsOfAll, ih]

theorem mem_ancestors_self (t : ElementType) : t ∈ t.ancestors := by
  cases t with
  | builtin b => exact List.mem_map_of_mem b.mem_ancestors_self
  | declared key name home parents => exact List.mem_cons_self

theorem mem_ancestors_trans (ht : t ∈ s.ancestors) (hu : u ∈ t.ancestors) : u ∈ s.ancestors := by
  induction s using ElementType.induction with
  | builtin a =>
    obtain ⟨b, hb, rfl⟩ := List.mem_map.mp ht
    obtain ⟨c, hc, rfl⟩ := List.mem_map.mp hu
    exact List.mem_map_of_mem (BuiltinType.mem_ancestors_trans hb hc)
  | declared key name home parents ih =>
    rcases List.mem_cons.mp ht with rfl | habove
    · exact hu
    · obtain ⟨p, hp, htp⟩ := mem_ancestorsOfAll.mp habove
      exact List.mem_cons_of_mem _ (mem_ancestorsOfAll.mpr ⟨p, hp, ih p hp htp⟩)

/-- What is above a type is the type itself, a built-in type, or smaller. -/
theorem eq_or_builtin_or_lt (h : u ∈ t.ancestors) :
    u = t ∨ (∃ b, u = builtin b) ∨ sizeOf u < sizeOf t := by
  induction t using ElementType.induction with
  | builtin b =>
    obtain ⟨c, -, rfl⟩ := List.mem_map.mp h
    exact .inr (.inl ⟨c, rfl⟩)
  | declared key name home parents ih =>
    rcases List.mem_cons.mp h with rfl | habove
    · exact .inl rfl
    · obtain ⟨p, hp, hup⟩ := mem_ancestorsOfAll.mp habove
      have hsmaller : sizeOf p < sizeOf (declared key name home parents) := by
        have := List.sizeOf_lt_of_mem hp
        simp only [declared.sizeOf_spec]
        omega
      rcases ih p hp hup with rfl | hbuiltin | hlt
      · exact .inr (.inr hsmaller)
      · exact .inr (.inl hbuiltin)
      · exact .inr (.inr (Nat.lt_trans hlt hsmaller))

theorem eq_builtin_of_mem_ancestors {b : BuiltinType} (hb : builtin b ∈ s.ancestors)
    (hs : s ∈ (builtin b).ancestors) : s = builtin b := by
  obtain ⟨a, ha, rfl⟩ := List.mem_map.mp hs
  obtain ⟨c, hc, hcb⟩ := List.mem_map.mp hb
  cases hcb
  exact congrArg builtin (BuiltinType.eq_of_mem_ancestors hc ha)

theorem eq_of_mem_ancestors (ht : t ∈ s.ancestors) (hs : s ∈ t.ancestors) : s = t := by
  rcases eq_or_builtin_or_lt ht with rfl | ⟨b, rfl⟩ | hts
  · rfl
  · exact eq_builtin_of_mem_ancestors ht hs
  · rcases eq_or_builtin_or_lt hs with rfl | ⟨a, rfl⟩ | hst
    · rfl
    · exact (eq_builtin_of_mem_ancestors hs ht).symm
    · exact absurd hts (Nat.lt_asymm hst)

theorem isSubclass_iff : isSubclass t u = true ↔ u = object ∨ u ∈ t.ancestors := by
  simp [isSubclass]

theorem eq_object_of_isSubclass (h : isSubclass object t = true) : t = object :=
  (isSubclass_iff.mp h).elim id List.mem_singleton.mp

instance : LawfulHierarchy ElementType where
  refl t := isSubclass_iff.mpr (.inr t.mem_ancestors_self)
  trans s t u hst htu := by
    rcases isSubclass_iff.mp htu with rfl | hu
    · exact isSubclass_iff.mpr (.inl rfl)
    · rcases isSubclass_iff.mp hst with rfl | ht
      · exact isSubclass_iff.mpr (.inl (eq_object_of_isSubclass htu))
      · exact isSubclass_iff.mpr (.inr (mem_ancestors_trans ht hu))
  antisymm s t hst hts := by
    rcases isSubclass_iff.mp hst with rfl | ht
    · exact eq_object_of_isSubclass hts
    · rcases isSubclass_iff.mp hts with rfl | hs
      · exact (eq_object_of_isSubclass hst).symm
      · exact eq_of_mem_ancestors ht hs

/-! ### A family of declared types -/

def animal : ElementType := declared 0 "Animal" "zoo" []

def pet : ElementType := declared 1 "Pet" "zoo" []

def dog : ElementType := declared 2 "Dog" "zoo" [animal]

def puppy : ElementType := declared 3 "Puppy" "zoo" [dog]

def cat : ElementType := declared 4 "Cat" "zoo" [animal, pet]

end ElementType

end FuzzyAlgebra

import Mathlib.Data.List.Induction

/-!
# Lists that hold each key once

Frames and definitions grow alike: a new entry takes the place of the one with its key, or comes
last. What such a list has as its keys, and which entries it holds, is settled here for both. Where
keys are collected from entries that repeat them, each stands where it came first.
-/

namespace FuzzyAlgebra

variable {α κ : Type} [DecidableEq κ] {key : α → κ}

/-- The list with an entry in the place of the one with its key, or at the end. -/
def upsert (key : α → κ) (a : α) : List α → List α
  | [] => [a]
  | b :: rest => if key b = key a then a :: rest else b :: upsert key a rest

theorem map_key_upsert (a : α) (l : List α) :
    (upsert key a l).map key = if key a ∈ l.map key then l.map key else l.map key ++ [key a] := by
  induction l with
  | nil => rfl
  | cons b rest ih =>
    rw [upsert]
    by_cases hkey : key b = key a
    · rw [if_pos hkey]
      simp [hkey]
    · have hkey' : ¬ key a = key b := fun h => hkey h.symm
      rw [if_neg hkey, List.map_cons, ih]
      by_cases hmem : key a ∈ rest.map key
      · simp [hmem]
      · rw [if_neg hmem, List.map_cons, if_neg (List.not_mem_cons_of_ne_of_not_mem hkey' hmem)]
        rfl

theorem nodup_map_key_upsert {l : List α} (h : (l.map key).Nodup) (a : α) :
    ((upsert key a l).map key).Nodup := by
  rw [map_key_upsert]
  split
  · exact h
  · rename_i hmem
    rw [List.nodup_append]
    refine ⟨h, by simp, ?_⟩
    intro k hk k' hk'
    rw [List.mem_singleton] at hk'
    rintro rfl
    exact hmem (hk' ▸ hk)

/-- The entries with other keys stay, and in their order. -/
theorem filter_key_ne_upsert (a : α) (l : List α) :
    (upsert key a l).filter (fun b => key b ≠ key a) = l.filter fun b => key b ≠ key a := by
  induction l with
  | nil => simp [upsert]
  | cons b rest ih =>
    rw [upsert]
    by_cases hkey : key b = key a
    · simp [hkey]
    · rw [if_neg hkey, List.filter_cons, List.filter_cons, ih]

theorem upsert_of_not_mem {a : α} {l : List α} (h : key a ∉ l.map key) :
    upsert key a l = l ++ [a] := by
  induction l with
  | nil => rfl
  | cons b rest ih =>
    have hb : ¬ key b = key a := fun hkey => h (hkey ▸ List.mem_cons_self)
    have hrest : key a ∉ rest.map key := fun hmem => h (List.mem_cons_of_mem _ hmem)
    rw [upsert, if_neg hb, ih hrest, List.cons_append]

theorem mem_upsert {a b : α} {l : List α} (h : b ∈ upsert key a l) : b = a ∨ b ∈ l := by
  induction l with
  | nil => exact .inl (List.mem_singleton.mp h)
  | cons c rest ih =>
    rw [upsert] at h
    split at h
    · exact (List.mem_cons.mp h).imp_right (List.mem_cons_of_mem _)
    · rcases List.mem_cons.mp h with hc | hrest
      · exact .inr (hc ▸ List.mem_cons_self)
      · exact (ih hrest).imp_right (List.mem_cons_of_mem _)

/-! ### First occurrences -/

theorem eraseDups_append_singleton (l : List κ) (k : κ) :
    (l ++ [k]).eraseDups = if k ∈ l then l.eraseDups else l.eraseDups ++ [k] := by
  rw [List.eraseDups_append]
  by_cases hk : k ∈ l
  · simp [List.cons_removeAll, hk]
  · simp [List.cons_removeAll, hk, List.eraseDups_cons]

theorem nodup_eraseDups (l : List κ) : l.eraseDups.Nodup := by
  induction l using List.reverseRecOn with
  | nil => exact .nil
  | append_singleton l k ih =>
    rw [eraseDups_append_singleton]
    split
    · exact ih
    · rename_i hk
      refine List.nodup_append.mpr ⟨ih, by simp, ?_⟩
      rintro m hm n hn rfl
      rw [List.mem_singleton] at hn
      exact hk (hn ▸ List.mem_eraseDups.mp hm)

/-- Whether a key is new at the end depends on the keys before it, not on how often they occur. -/
theorem eraseDups_append_singleton_congr {l m : List κ} (h : l.eraseDups = m.eraseDups) (k : κ) :
    (l ++ [k]).eraseDups = (m ++ [k]).eraseDups := by
  have hmem : k ∈ l ↔ k ∈ m := by rw [← List.mem_eraseDups, h, List.mem_eraseDups]
  simp only [eraseDups_append_singleton, hmem, h]

/-- The place of the first entry that has a key and a property. -/
def place? (key : α → κ) (p : α → Bool) (l : List α) (k : κ) : Option Nat :=
  l.findIdx? fun a => key a = k && p a

section Place

variable {p : α → Bool} {l : List α} {k : κ}

theorem place?_append_singleton (a : α) :
    place? key p (l ++ [a]) k =
      (place? key p l k).or (if key a = k && p a then some l.length else none) := by
  rw [place?, List.findIdx?_append, List.findIdx?_singleton, apply_ite (Option.map _)]
  simp [place?]

theorem exists_place?_iff : (∃ m, place? key p l k = some m) ↔ k ∈ (l.filter p).map key := by
  simp only [place?, ← Option.isSome_iff_exists, List.findIdx?_isSome, List.any_eq_true,
    List.mem_map, List.mem_filter]
  constructor
  · rintro ⟨a, ha, hk⟩
    simp only [Bool.and_eq_true, decide_eq_true_eq] at hk
    exact ⟨a, ⟨ha, hk.2⟩, hk.1⟩
  · rintro ⟨a, ⟨ha, hp⟩, rfl⟩
    exact ⟨a, ha, by simp [hp]⟩

theorem place?_lt {m : Nat} (h : place? key p l k = some m) : m < l.length := by
  obtain ⟨hlt, -⟩ := List.findIdx?_eq_some_iff_getElem.mp h
  exact hlt

end Place

/-- Keys without repetition stand in the order of the first entries that have them. -/
theorem pairwise_place?_eraseDups (key : α → κ) (p : α → Bool) (l : List α) :
    ((l.filter p).map key).eraseDups.Pairwise fun j k =>
      ∃ m n, place? key p l j = some m ∧ place? key p l k = some n ∧ m < n := by
  induction l using List.reverseRecOn with
  | nil => exact .nil
  | append_singleton l a ih =>
    have hearlier : ∀ k m, place? key p l k = some m → place? key p (l ++ [a]) k = some m := by
      intro k m hm
      rw [place?_append_singleton, hm, Option.some_or]
    have hkept := ih.imp fun {j k} ⟨m, n, hm, hn, hlt⟩ =>
      (⟨m, n, hearlier j m hm, hearlier k n hn, hlt⟩ :
        ∃ m n, place? key p (l ++ [a]) j = some m ∧ place? key p (l ++ [a]) k = some n ∧ m < n)
    rw [List.filter_append]
    by_cases hp : p a = true
    · rw [List.filter_cons_of_pos hp, List.filter_nil, List.map_append, List.map_singleton,
        eraseDups_append_singleton]
      split
      · exact hkept
      · rename_i hnew
        refine List.pairwise_append.mpr ⟨hkept, List.pairwise_singleton _ _, ?_⟩
        intro j hj k hk
        obtain ⟨m, hm⟩ := exists_place?_iff.mpr (List.mem_eraseDups.mp hj)
        rw [List.mem_singleton] at hk
        have hnone : place? key p l k = none := by
          rw [hk]
          exact Option.eq_none_iff_forall_ne_some.mpr fun n hn =>
            hnew (exists_place?_iff.mp ⟨n, hn⟩)
        refine ⟨m, l.length, hearlier j m hm, ?_, place?_lt hm⟩
        rw [place?_append_singleton, hnone, hk]
        simp [hp]
    · rw [List.filter_cons_of_neg hp, List.filter_nil, List.append_nil]
      exact hkept

end FuzzyAlgebra

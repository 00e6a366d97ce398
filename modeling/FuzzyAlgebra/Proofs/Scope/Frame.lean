import FuzzyAlgebra.Proofs.Keyed
import FuzzyAlgebra.Scope.Frame

/-!
# Binding in a frame

A frame is seen through its names in order and the binding of each name. Binding puts a new name
last, leaves a known name where it is, and replaces what that name is bound to.
-/

namespace FuzzyAlgebra

namespace Frame

variable {τ : Type}

theorem insert_eq_upsert (b : Binding τ) (bs : List (Binding τ)) :
    insert b bs = upsert Binding.name b bs := by
  induction bs with
  | nil => rfl
  | cons c rest ih => rw [insert, upsert, ih]

theorem find?_insert (b : Binding τ) (bs : List (Binding τ)) (n : String) :
    (insert b bs).find? (fun c => c.name = n) =
      if b.name = n then some b else bs.find? fun c => c.name = n := by
  induction bs with
  | nil => by_cases hn : b.name = n <;> simp [insert, hn]
  | cons c rest ih =>
    rw [insert]
    by_cases hname : c.name = b.name
    · rw [if_pos hname]
      by_cases hn : b.name = n <;> simp [hname, hn]
    · rw [if_neg hname]
      by_cases hc : c.name = n
      · have hn : ¬ b.name = n := fun h => hname (hc.trans h.symm)
        simp [hc, hn]
      · simp [hc, ih]

@[simp]
theorem key_bind (f : Frame τ) (b : Binding τ) : (f.bind b).key = f.key := rfl

@[simp]
theorem name_bind (f : Frame τ) (b : Binding τ) : (f.bind b).name = f.name := rfl

theorem names_bind (f : Frame τ) (b : Binding τ) :
    (f.bind b).names = if b.name ∈ f.names then f.names else f.names ++ [b.name] := by
  rw [names, bind, insert_eq_upsert]
  exact map_key_upsert b f.bindings

theorem get?_bind (f : Frame τ) (b : Binding τ) (n : String) :
    (f.bind b).get? n = if b.name = n then some b else f.get? n :=
  find?_insert b f.bindings n

theorem nodup_names_bind {f : Frame τ} (h : f.names.Nodup) (b : Binding τ) :
    (f.bind b).names.Nodup := by
  rw [names, bind, insert_eq_upsert]
  exact nodup_map_key_upsert h b

theorem mem_bindings_bind {f : Frame τ} {b c : Binding τ} (h : c ∈ (f.bind b).bindings) :
    c = b ∨ c ∈ f.bindings := by
  rw [bind, insert_eq_upsert] at h
  exact mem_upsert h

theorem filter_name_ne_bind (f : Frame τ) (b : Binding τ) :
    (f.bind b).bindings.filter (fun c => c.name ≠ b.name) =
      f.bindings.filter fun c => c.name ≠ b.name := by
  rw [bind, insert_eq_upsert]
  exact filter_key_ne_upsert b f.bindings

theorem find?_of_mem {b : Binding τ} {bs : List (Binding τ)}
    (hnodup : (bs.map Binding.name).Nodup) (hb : b ∈ bs) :
    bs.find? (fun c => c.name = b.name) = some b := by
  induction bs with
  | nil => cases hb
  | cons c rest ih =>
    rw [List.map_cons, List.nodup_cons] at hnodup
    rcases List.mem_cons.mp hb with rfl | hrest
    · simp
    · have hne : ¬ c.name = b.name := fun h => hnodup.1 (h ▸ List.mem_map_of_mem hrest)
      rw [List.find?_cons_of_neg (by simpa using hne)]
      exact ih hnodup.2 hrest

theorem get?_of_mem {f : Frame τ} {b : Binding τ} (hnodup : f.names.Nodup)
    (hb : b ∈ f.bindings) : f.get? b.name = some b :=
  find?_of_mem hnodup hb

/-! ### Binding one after the other -/

def bindAll (bs : List (Binding τ)) (f : Frame τ) : Frame τ := bs.foldl Frame.bind f

@[simp]
theorem bindAll_nil (f : Frame τ) : f.bindAll [] = f := rfl

theorem bindAll_cons (b : Binding τ) (bs : List (Binding τ)) (f : Frame τ) :
    f.bindAll (b :: bs) = (f.bind b).bindAll bs := rfl

theorem bindAll_append (bs cs : List (Binding τ)) (f : Frame τ) :
    f.bindAll (bs ++ cs) = (f.bindAll bs).bindAll cs :=
  List.foldl_append

@[simp]
theorem key_bindAll (bs : List (Binding τ)) (f : Frame τ) : (f.bindAll bs).key = f.key := by
  induction bs generalizing f with
  | nil => rfl
  | cons b rest ih => rw [bindAll_cons, ih, key_bind]

@[simp]
theorem name_bindAll (bs : List (Binding τ)) (f : Frame τ) : (f.bindAll bs).name = f.name := by
  induction bs generalizing f with
  | nil => rfl
  | cons b rest ih => rw [bindAll_cons, ih, name_bind]

/-- Each name stands where it was bound first. -/
theorem names_bindAll_empty (key : Nat) (name : String) (bs : List (Binding τ)) :
    ((empty key name).bindAll bs).names = (bs.map Binding.name).eraseDups := by
  induction bs using List.reverseRecOn with
  | nil => rfl
  | append_singleton bs b ih =>
    rw [bindAll_append, bindAll_cons, bindAll_nil, names_bind, ih, List.map_append,
      List.map_singleton, eraseDups_append_singleton]
    simp only [List.mem_eraseDups]

/-- Each name means what it was bound to last. -/
theorem get?_bindAll (bs : List (Binding τ)) (f : Frame τ) (n : String) :
    (f.bindAll bs).get? n = (bs.reverse.find? fun b => b.name = n).or (f.get? n) := by
  induction bs using List.reverseRecOn with
  | nil => rfl
  | append_singleton bs b ih =>
    rw [bindAll_append, bindAll_cons, bindAll_nil, get?_bind, ih, List.reverse_append]
    by_cases hname : b.name = n
    · simp [hname]
    · simp [hname]

end Frame

end FuzzyAlgebra

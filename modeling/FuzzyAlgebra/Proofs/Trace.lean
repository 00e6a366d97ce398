import FuzzyAlgebra.Trace

/-!
# Laws of computations with a trace

The result, the events and the state that a computation leaves behind are what those of its parts
say. Later proofs look at runs through these facts, and never through the definition of a bind.
-/

namespace FuzzyAlgebra

namespace Traced

variable {α β γ : Type}

@[ext]
theorem ext {s t : Traced α} (hresult : s.result = t.result) (hevents : s.events = t.events) :
    s = t := by
  cases s
  cases t
  cases hresult
  cases hevents
  rfl

@[simp]
theorem result_pure (a : α) : (pure a : Traced α).result = .ok a := rfl

theorem bind_of_ok {t : Traced α} {a : α} (h : t.result = .ok a) (f : α → Traced β) :
    (t >>= f) = ⟨(f a).result, t.events ++ (f a).events⟩ := by
  change Traced.bind t f = _
  rw [Traced.bind, h]

theorem bind_of_error {t : Traced α} {e : Fault} (h : t.result = .error e) (f : α → Traced β) :
    (t >>= f) = ⟨.error e, t.events⟩ := by
  change Traced.bind t f = _
  rw [Traced.bind, h]

theorem result_ofMishap_eq_ok_iff {r : Except Mishap α} {a : α} :
    (ofMishap r).result = .ok a ↔ r = .ok a := by
  cases r <;> simp [ofMishap]

theorem result_bind_eq_ok_iff {t : Traced α} {f : α → Traced β} {b : β} :
    (t >>= f).result = .ok b ↔ ∃ a, t.result = .ok a ∧ (f a).result = .ok b := by
  cases h : t.result with
  | ok a =>
    rw [bind_of_ok h]
    simp
  | error e =>
    rw [bind_of_error h]
    simp

theorem result_bind_eq_error_iff {t : Traced α} {f : α → Traced β} {e : Fault} :
    (t >>= f).result = .error e ↔
      t.result = .error e ∨ ∃ a, t.result = .ok a ∧ (f a).result = .error e := by
  cases h : t.result with
  | ok a =>
    rw [bind_of_ok h]
    simp
  | error e' =>
    rw [bind_of_error h]
    simp

private theorem bind_pure_self (t : Traced α) : (t >>= fun a => pure a) = t := by
  cases h : t.result with
  | ok a =>
    rw [bind_of_ok h]
    exact ext h.symm (List.append_nil _)
  | error e =>
    rw [bind_of_error h]
    exact ext h.symm rfl

private theorem bind_bind (t : Traced α) (f : α → Traced β) (g : β → Traced γ) :
    (t >>= f >>= g) = t >>= fun a => f a >>= g := by
  cases h : t.result with
  | error e => rw [bind_of_error h, bind_of_error h, bind_of_error rfl]
  | ok a =>
    rw [bind_of_ok h, bind_of_ok h]
    cases hf : (f a).result with
    | error e => rw [bind_of_error hf, bind_of_error rfl]
    | ok b => rw [bind_of_ok hf, bind_of_ok rfl, List.append_assoc]

instance : LawfulMonad Traced :=
  LawfulMonad.mk' Traced bind_pure_self (fun _ _ => rfl) bind_bind

/-! ### Computations without calls -/

/-- No membership function is called. -/
def Quiet (t : Traced α) : Prop := t.calls = []

theorem quiet_pure (a : α) : (pure a : Traced α).Quiet := rfl

theorem quiet_stop (e : Fault) : (stop e : Traced α).Quiet := rfl

theorem quiet_mishap (m : Mishap) : (mishap m : Traced α).Quiet := rfl

theorem quiet_log (level : Level) (channel : String) (message : Thunk String) :
    (log level channel message).Quiet := rfl

theorem quiet_ofExcept (r : Except Fault α) : (ofExcept r).Quiet := rfl

theorem quiet_ofMishap (r : Except Mishap α) : (ofMishap r).Quiet := by
  cases r <;> rfl

theorem quiet_failWith (level : Level) (channel : String) (message : Thunk String) (f : Failure) :
    (failWith level channel message f : Traced α).Quiet := rfl

theorem quiet_failQuoting (v : Value) (level : Level) (channel : String) (message : Thunk String)
    (f : Failure) : (failQuoting v level channel message f : Traced α).Quiet := by
  unfold failQuoting
  split
  · exact quiet_failWith level channel message f
  · exact quiet_mishap _

theorem result_failQuoting (v : Value) (level : Level) (channel : String) (message : Thunk String)
    (f : Failure) :
    (failQuoting v level channel message f : Traced α).result =
      if v.isWritable then .error (.failure f) else .error (.mishap .malformed) := by
  unfold failQuoting
  split <;> rfl

theorem quiet_logQuoting (vs : List Value) (level : Level) (channel : String)
    (message : Thunk String) : (logQuoting vs level channel message).Quiet := rfl

@[simp]
theorem result_logQuoting (vs : List Value) (level : Level) (channel : String)
    (message : Thunk String) : (logQuoting vs level channel message).result = .ok () := rfl

theorem failQuoting_ne_ok {v : Value} {level : Level} {channel : String} {message : Thunk String}
    {f : Failure} (a : α) : (failQuoting v level channel message f).result ≠ .ok a := by
  rw [result_failQuoting]
  split <;> exact nofun

theorem calls_bind_of_quiet (t : Traced α) {f : α → Traced β} (hf : ∀ a, (f a).Quiet) :
    (t >>= f).calls = t.calls := by
  cases h : t.result with
  | ok a =>
    have hnone : (f a).events.filterMap Event.key? = [] := hf a
    rw [bind_of_ok h, calls, List.filterMap_append, hnone, List.append_nil]
    rfl
  | error e =>
    rw [bind_of_error h]
    rfl

theorem Quiet.bind {t : Traced α} {f : α → Traced β} (ht : t.Quiet) (hf : ∀ a, (f a).Quiet) :
    (t >>= f).Quiet :=
  (calls_bind_of_quiet t hf).trans ht

end Traced

namespace Action

variable {σ α β : Type} {act : Action σ α} {s : σ}

theorem bind_of_ok {a : α} (h : (act s).1.result = .ok a) (f : α → Action σ β) :
    (act >>= f) s =
      (⟨(f a (act s).2).1.result, (act s).1.events ++ (f a (act s).2).1.events⟩,
        (f a (act s).2).2) := by
  change Action.bind act f s = _
  rw [Action.bind]
  rcases hact : act s with ⟨⟨result, events⟩, s'⟩
  rw [hact] at h
  cases h
  rfl

theorem bind_of_error {e : Fault} (h : (act s).1.result = .error e) (f : α → Action σ β) :
    (act >>= f) s = (⟨.error e, (act s).1.events⟩, (act s).2) := by
  change Action.bind act f s = _
  rw [Action.bind]
  rcases hact : act s with ⟨⟨result, events⟩, s'⟩
  rw [hact] at h
  cases h
  rfl

theorem quiet_bind {f : α → Action σ β} (hact : (act s).1.Quiet)
    (hf : ∀ a s, (f a s).1.Quiet) : ((act >>= f) s).1.Quiet := by
  cases h : (act s).1.result with
  | ok a =>
    rw [bind_of_ok h]
    have hnone : (f a (act s).2).1.events.filterMap Event.key? = [] := hf a (act s).2
    change ((act s).1.events ++ (f a (act s).2).1.events).filterMap Event.key? = []
    rw [List.filterMap_append, hnone, List.append_nil]
    exact hact
  | error e =>
    rw [bind_of_error h]
    exact hact

theorem result_bind_of_ok {a : α} (h : (act s).1.result = .ok a) (f : α → Action σ β) :
    ((act >>= f) s).1.result = (f a (act s).2).1.result := by
  rw [bind_of_ok h]

theorem state_bind_of_ok {a : α} (h : (act s).1.result = .ok a) (f : α → Action σ β) :
    ((act >>= f) s).2 = (f a (act s).2).2 := by
  rw [bind_of_ok h]

theorem state_bind_of_error {e : Fault} (h : (act s).1.result = .error e) (f : α → Action σ β) :
    ((act >>= f) s).2 = (act s).2 := by
  rw [bind_of_error h]

theorem result_bind_eq_ok_iff {f : α → Action σ β} {b : β} :
    ((act >>= f) s).1.result = .ok b ↔
      ∃ a, (act s).1.result = .ok a ∧ (f a (act s).2).1.result = .ok b := by
  cases h : (act s).1.result with
  | ok a =>
    rw [bind_of_ok h]
    simp
  | error e =>
    rw [bind_of_error h]
    simp

private theorem bind_pure_self (act : Action σ α) : (act >>= fun a => pure a) = act := by
  funext s
  rcases hact : act s with ⟨⟨result, events⟩, s'⟩
  have hresult : (act s).1.result = result := by rw [hact]
  cases result with
  | ok a =>
    rw [bind_of_ok hresult, hact]
    exact congrArg (fun events => ((⟨.ok a, events⟩ : Traced α), s')) (List.append_nil events)
  | error e => rw [bind_of_error hresult, hact]

private theorem bind_bind {γ : Type} (act : Action σ α) (f : α → Action σ β) (g : β → Action σ γ) :
    (act >>= f >>= g) = act >>= fun a => f a >>= g := by
  funext s
  cases h : (act s).1.result with
  | error e =>
    have hfirst : ((act >>= f) s).1.result = .error e := by rw [bind_of_error h]
    rw [bind_of_error hfirst, bind_of_error h, bind_of_error h]
  | ok a =>
    have hfirst := result_bind_of_ok h f
    cases hf : (f a (act s).2).1.result with
    | error e =>
      rw [bind_of_error (hfirst.trans hf), bind_of_ok h, bind_of_ok h, bind_of_error hf]
    | ok b =>
      rw [bind_of_ok (hfirst.trans hf), bind_of_ok h, bind_of_ok h, bind_of_ok hf,
        List.append_assoc]

instance : LawfulMonad (Action σ) :=
  LawfulMonad.mk' (Action σ) bind_pure_self (fun _ _ => rfl) bind_bind

theorem result_map (act : Action σ α) (f : α → β) (s : σ) :
    ((act >>= fun a => pure (f a)) s).1.result = (act s).1.result.map f := by
  cases h : (act s).1.result with
  | ok a =>
    rw [bind_of_ok h]
    rfl
  | error e =>
    rw [bind_of_error h]
    rfl

theorem state_map (act : Action σ α) (f : α → β) (s : σ) :
    ((act >>= fun a => pure (f a)) s).2 = (act s).2 := by
  cases h : (act s).1.result with
  | ok a => exact state_bind_of_ok h _
  | error e => exact state_bind_of_error h _

/-- A bracket that acquires something ends as its body did, unless the release fails. -/
theorem bracket_of_ok {γ : Type} {acquire : Action σ β} {b : β}
    (h : (acquire s).1.result = .ok b) (body : β → Action σ α) (release : Action σ γ) :
    (bracket acquire body release s).1.result =
        ((release (body b (acquire s).2).2).1.result.bind fun _ =>
          (body b (acquire s).2).1.result) ∧
      (bracket acquire body release s).2 = (release (body b (acquire s).2).2).2 := by
  have hattempt : ((body b).attempt (acquire s).2).1.result =
      .ok (body b (acquire s).2).1.result := rfl
  have hstate : ((body b).attempt (acquire s).2).2 = (body b (acquire s).2).2 := rfl
  unfold bracket
  rw [result_bind_of_ok h, state_bind_of_ok h, result_bind_of_ok hattempt,
    state_bind_of_ok hattempt, hstate]
  cases hrelease : (release (body b (acquire s).2).2).1.result with
  | ok c =>
    rw [result_bind_of_ok hrelease, state_bind_of_ok hrelease]
    exact ⟨rfl, rfl⟩
  | error e =>
    rw [bind_of_error hrelease]
    exact ⟨rfl, rfl⟩

end Action

end FuzzyAlgebra

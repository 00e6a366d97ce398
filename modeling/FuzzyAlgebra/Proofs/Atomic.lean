import FuzzyAlgebra.Proofs.Trace

/-!
# Failures that leave nothing behind

An action is atomic if the state after a failure is the state before it. In a row of atomic calls,
those that fail can be left out: the others meet the states that they would have met, so they end
alike and leave the same events, and the row ends in the same state.
-/

namespace FuzzyAlgebra

namespace Traced

variable {α : Type} {t : Traced α}

def succeeded (t : Traced α) : Bool := t.result.isOk

theorem succeeded_of_ok {a : α} (h : t.result = .ok a) : t.succeeded = true := by
  rw [succeeded, h]
  rfl

theorem not_succeeded_of_error {e : Fault} (h : t.result = .error e) : ¬ t.succeeded = true := by
  rw [succeeded, h]
  exact Bool.false_ne_true

end Traced

namespace Action

variable {σ α β ι : Type} {act : Action σ α}

/-- A failure leaves the state as it was. -/
def Atomic (act : Action σ α) : Prop :=
  ∀ s e, (act s).1.result = .error e → (act s).2 = s

theorem atomic_ofTraced (t : Traced α) : (ofTraced t : Action σ α).Atomic := fun _ _ _ => rfl

theorem atomic_inspect (f : σ → Traced α) : (inspect f).Atomic := fun _ _ _ => rfl

theorem Atomic.map (hact : act.Atomic) (f : α → β) :
    (act >>= fun a => pure (f a)).Atomic := by
  intro s e he
  rw [result_map] at he
  rw [state_map]
  cases h : (act s).1.result with
  | ok a =>
    rw [h] at he
    cases he
  | error e' => exact hact s e' h

/-! ### Rows of calls -/

section Row

variable (run : ι → Action σ α)

/-- The state after a row of calls, which goes on after those that fail. -/
def final : List ι → σ → σ
  | [], s => s
  | c :: rest, s => final rest (run c s).2

/-- How the calls of a row ended, and what happened on the way. -/
def outcomes : List ι → σ → List (Traced α)
  | [], _ => []
  | c :: rest, s => (run c s).1 :: outcomes rest (run c s).2

/-- The calls of a row that succeed in it. -/
def successful : List ι → σ → List ι
  | [], _ => []
  | c :: rest, s =>
    if (run c s).1.succeeded then c :: successful rest (run c s).2
    else successful rest (run c s).2

variable {run}

/-- Leaving out the calls that fail changes nothing for the others. -/
theorem successful_eq {calls : List ι} (h : ∀ c ∈ calls, (run c).Atomic) (s : σ) :
    final run (successful run calls s) s = final run calls s ∧
      outcomes run (successful run calls s) s =
        (outcomes run calls s).filter Traced.succeeded := by
  induction calls generalizing s with
  | nil => exact ⟨rfl, rfl⟩
  | cons c rest ih =>
    obtain ⟨hfinal, houtcomes⟩ := ih (fun c' hc' => h c' (List.mem_cons_of_mem _ hc')) (run c s).2
    cases hresult : (run c s).1.result with
    | ok a =>
      have hok := Traced.succeeded_of_ok hresult
      rw [successful, if_pos hok, final, final, outcomes, outcomes, List.filter_cons_of_pos hok,
        houtcomes]
      exact ⟨hfinal, rfl⟩
    | error e =>
      have hfailed := Traced.not_succeeded_of_error hresult
      have hstate : (run c s).2 = s := h c List.mem_cons_self s e hresult
      rw [hstate] at hfinal houtcomes
      rw [successful, if_neg hfailed, final, outcomes, List.filter_cons_of_neg hfailed, hstate]
      exact ⟨hfinal, houtcomes⟩

end Row

end Action

end FuzzyAlgebra

import FuzzyAlgebra.Yaml.Cursor

/-!
# Which problems a text can have

A text that was decoded is not well formed, or one of its scalars has no value of the kind that its
tag asks for. That is closed under sequencing, with and without a state, so every reader is shown to
have it by the readers that it is made of.
-/

namespace FuzzyAlgebra.Yaml

/-- How the value of a scalar can fail: its node is of another kind, its text does not write such a
value, the number is too large, or a text is too short, no word, or no moment. -/
def scalarMishaps : List Mishap :=
  [.wrongType, .malformed, .tooLarge, .outOfBounds, .missingKey, .noSuchMember]

/-- A problem that a text can have once it is decoded. -/
inductive Problem.OfText : Problem → Prop
  | malformed : OfText .malformed
  | mishap {m : Mishap} : m ∈ scalarMishaps → OfText (.mishap m)

def Halt.OfText (halt : Halt) : Prop := halt.problem.OfText

/-! ### Computations that can fail -/

section Within

variable {ε ε' α β : Type} {P Q : ε → Prop} {r : Except ε α}

/-- All errors of the computation are among the given ones. -/
def Within (P : ε → Prop) (r : Except ε α) : Prop := ∀ e, r = .error e → P e

@[grind ←]
theorem within_ok (a : α) : Within P (.ok a : Except ε α) := by
  intro e h
  cases h

@[grind ←]
theorem within_pure (a : α) : Within P (pure a : Except ε α) := within_ok a

theorem within_error {e : ε} (h : P e) : Within P (.error e : Except ε α) := by
  intro e' he
  cases he
  exact h

theorem Within.mono (hr : Within P r) (h : ∀ e, P e → Q e) : Within Q r :=
  fun e he => h e (hr e he)

@[grind ←]
theorem Within.bind {f : α → Except ε β} (hr : Within P r) (hf : ∀ a, Within P (f a)) :
    Within P (r >>= f) := by
  cases r with
  | ok a => exact hf a
  | error e => exact within_error (hr e rfl)

@[grind ←]
theorem Within.map (hr : Within P r) (f : α → β) : Within P (r.map f) := by
  cases r with
  | ok a => exact within_ok (f a)
  | error e => exact within_error (hr e rfl)

theorem Within.mapError {P : ε' → Prop} {f : ε → ε'} (hr : Within (fun e => P (f e)) r) :
    Within P (r.mapError f) := by
  cases r with
  | ok a => exact within_ok a
  | error e => exact within_error (hr e rfl)

theorem within_mapM {f : α → Except ε β} (hf : ∀ a, Within P (f a)) (l : List α) :
    Within P (l.mapM f) := by
  induction l with
  | nil => exact within_ok []
  | cons a l ih =>
    rw [List.mapM_cons]
    exact (hf a).bind fun b => ih.bind fun bs => within_ok (b :: bs)

end Within

section Ends

variable {ε α β : Type} {P : ε → Prop} {Q : α → Prop} {R : β → Prop} {r : Except ε α}

/-- The computation ends with one of the given values or one of the given errors. -/
def Ends (P : ε → Prop) (Q : α → Prop) (r : Except ε α) : Prop :=
  Within P r ∧ ∀ a, r = .ok a → Q a

theorem ends_ok {a : α} (h : Q a) : Ends P Q (.ok a : Except ε α) := by
  refine ⟨within_ok a, fun a' ha => ?_⟩
  cases ha
  exact h

@[grind ←]
theorem ends_pure {a : α} (h : Q a) : Ends P Q (pure a : Except ε α) := ends_ok h

theorem ends_error {e : ε} (h : P e) : Ends P Q (.error e : Except ε α) :=
  ⟨within_error h, fun _ ha => by cases ha⟩

theorem Ends.bind {f : α → Except ε β} (hr : Ends P Q r) (hf : ∀ a, Q a → Ends P R (f a)) :
    Ends P R (r >>= f) := by
  cases r with
  | ok a => exact hf a (hr.2 a rfl)
  | error e => exact ends_error (hr.1 e rfl)

@[grind ←]
theorem Within.bind_ends {f : α → Except ε β} (hr : Within P r) (hf : ∀ a, Ends P R (f a)) :
    Ends P R (r >>= f) :=
  Ends.bind (Q := fun _ => True) ⟨hr, fun _ _ => trivial⟩ fun a _ => hf a

theorem ends_ite {c : Prop} [Decidable c] {r r' : Except ε α} (hr : Ends P Q r)
    (hr' : Ends P Q r') : Ends P Q (if c then r else r') := by
  split
  · exact hr
  · exact hr'

end Ends

/-! ### Computations with a state -/

section Keeps

variable {σ α β : Type} {I : σ → Prop} {P : Problem → Prop} {m : StateT σ (Except Problem) α}

/-- From a state that the invariant holds of, the computation fails with one of the given problems
or gets to another such state. -/
def Keeps (I : σ → Prop) (P : Problem → Prop) (m : StateT σ (Except Problem) α) : Prop :=
  ∀ s, I s → Within P (m s) ∧ ∀ a s', m s = .ok (a, s') → I s'

@[grind ←]
theorem keeps_pure (a : α) : Keeps I P (pure a : StateT σ (Except Problem) α) := by
  intro s hs
  refine ⟨within_ok _, fun b s' h => ?_⟩
  cases h
  exact hs

theorem keeps_throw {p : Problem} (h : P p) : Keeps I P (throw p : StateT σ (Except Problem) α) :=
  fun _ _ => ⟨within_error h, fun _ _ h => by cases h⟩

@[grind ←]
theorem keeps_get : Keeps I P (get : StateT σ (Except Problem) σ) := by
  intro s hs
  refine ⟨within_ok _, fun b s' h => ?_⟩
  cases h
  exact hs

theorem keeps_modify {f : σ → σ} (hf : ∀ s, I s → I (f s)) :
    Keeps I P (modify f : StateT σ (Except Problem) PUnit) := by
  intro s hs
  refine ⟨within_ok _, fun b s' h => ?_⟩
  cases h
  exact hf s hs

theorem keeps_lift {r : Except Problem α} (hr : Within P r) :
    Keeps I P (liftM r : StateT σ (Except Problem) α) := by
  intro s hs
  cases r with
  | ok a =>
    refine ⟨within_ok _, fun b s' h => ?_⟩
    cases h
    exact hs
  | error p => exact ⟨within_error (hr p rfl), fun _ _ h => by cases h⟩

@[grind ←]
theorem Keeps.bind {f : α → StateT σ (Except Problem) β} (hm : Keeps I P m)
    (hf : ∀ a, Keeps I P (f a)) : Keeps I P (m >>= f) := by
  intro s hs
  obtain ⟨hfails, hends⟩ := hm s hs
  have hrun : (m >>= f) s = m s >>= fun p => f p.1 p.2 := rfl
  rw [hrun]
  cases h : m s with
  | error p => exact ⟨within_error (hfails p h), fun _ _ h => by cases h⟩
  | ok p => exact hf p.1 p.2 (hends p.1 p.2 h)

/-- Of the state that is looked at the invariant holds. -/
theorem keeps_get_bind {f : σ → StateT σ (Except Problem) β} (hf : ∀ s, I s → Keeps I P (f s)) :
    Keeps I P (get >>= f) := fun s hs => hf s hs s hs

@[grind ←]
theorem Keeps.map (hm : Keeps I P m) (f : α → β) : Keeps I P (f <$> m) := by
  rw [map_eq_pure_bind]
  exact hm.bind fun a => keeps_pure (f a)

theorem keeps_mapM {f : α → StateT σ (Except Problem) β} (hf : ∀ a, Keeps I P (f a))
    (l : List α) : Keeps I P (l.mapM f) := by
  induction l with
  | nil => exact keeps_pure []
  | cons a l ih =>
    rw [List.mapM_cons]
    exact (hf a).bind fun b => ih.bind fun bs => keeps_pure (b :: bs)

theorem keeps_forM {f : α → StateT σ (Except Problem) PUnit} (hf : ∀ a, Keeps I P (f a))
    (l : List α) : Keeps I P (l.forM f) := by
  induction l with
  | nil => exact keeps_pure _
  | cons a l ih => exact (hf a).bind fun _ => ih

theorem Keeps.within {s : σ} (hm : Keeps I P m) (hs : I s) : Within P (m.run s) := (hm s hs).1

end Keeps

end FuzzyAlgebra.Yaml

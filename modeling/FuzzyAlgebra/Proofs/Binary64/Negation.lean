import FuzzyAlgebra.Proofs.Binary64.Quotient

/-!
# Negation

Negation turns the order around, and rounding does not see it. So the difference of two negated
numbers is that of the numbers the other way round. The two differences of a pair are opposite
numbers, or one and the same zero, and a multiple of a square has no use for the sign of the root.
-/

namespace FuzzyAlgebra.Binary64

variable {x y : Binary64}

theorem neg_neg (x : Binary64) : - -x = x := by
  cases x with
  | nan => rfl
  | infinite negative => exact congrArg infinite (Bool.not_not negative)
  | finite negative units hunits =>
    exact congrArg (finite · units hunits) (Bool.not_not negative)

theorem isNaN_neg (x : Binary64) : (-x).isNaN = x.isNaN := by
  cases x <;> rfl

theorem neg_finite (negative : Bool) {units : Nat} (h : Representable units) :
    -finite negative units h = finite (!negative) units h := rfl

theorem neg_ofRatio (negative : Bool) (num den : Nat) :
    -ofRatio negative num den = ofRatio (!negative) num den := by
  unfold ofRatio ofUnits
  split <;> rfl

/-! ### Order -/

theorem rank_neg_eq_map (x : Binary64) : (-x).rank = x.rank.map Neg.neg := by
  cases x with
  | nan => rfl
  | infinite negative => exact rank_neg rfl
  | finite negative units hunits => exact rank_neg rfl

theorem neg_le_neg_iff : -x ≤ -y ↔ y ≤ x := by
  change compareBy _ (-x) (-y) = true ↔ compareBy _ y x = true
  rw [compareBy, compareBy, rank_neg_eq_map, rank_neg_eq_map]
  cases x.rank <;> cases y.rank <;> simp

theorem neg_lt_neg_iff : -x < -y ↔ y < x := by
  change compareBy _ (-x) (-y) = true ↔ compareBy _ y x = true
  rw [compareBy, compareBy, rank_neg_eq_map, rank_neg_eq_map]
  cases x.rank <;> cases y.rank <;> simp

/-! ### Sums and differences -/

theorem finite_add_finite {s t : Bool} {m n : Nat} (hm : Representable m) (hn : Representable n) :
    finite s m hm + finite t n hn =
      if signed s m + signed t n = 0 then finite (s && t) 0 representable_zero
      else ofRatio (signed s m + signed t n < 0) (signed s m + signed t n).natAbs 1 := by
  change Binary64.add _ _ = _
  rw [Binary64.add]

theorem add_comm (x y : Binary64) : x + y = y + x := by
  cases x with
  | nan => cases y <;> rfl
  | infinite s =>
    cases y with
    | nan => rfl
    | infinite t => cases s <;> cases t <;> rfl
    | finite t n hn => rfl
  | finite s m hm =>
    cases y with
    | nan => rfl
    | infinite t => rfl
    | finite t n hn =>
      rw [finite_add_finite, finite_add_finite, Int.add_comm, Bool.and_comm]

theorem neg_sub_neg (x y : Binary64) : -x - -y = y - x := by
  calc -x - -y = -x + y := congrArg (-x + ·) (neg_neg y)
    _ = y - x := add_comm _ _

/-- The two differences of a pair are opposite numbers, unless they are one and the same zero. -/
theorem sub_swap_cases (x y : Binary64) : y - x = -(x - y) ∨ y - x = x - y := by
  have hswap : y - x = -x + y := add_comm _ _
  have hsub : x - y = x + -y := rfl
  rw [hswap, hsub]
  cases x with
  | nan => exact .inl rfl
  | infinite s =>
    cases y with
    | nan => exact .inl rfl
    | infinite t => cases s <;> cases t <;> exact .inl rfl
    | finite t n hn => exact .inl rfl
  | finite s m hm =>
    cases y with
    | nan => exact .inl rfl
    | infinite t => exact .inl (congrArg infinite (Bool.not_not t).symm)
    | finite t n hn =>
      have hopposite : signed (!s) m + signed t n = -(signed s m + signed (!t) n) := by
        rw [signed_not, signed_not]
        omega
      rw [neg_finite, neg_finite, finite_add_finite, finite_add_finite, hopposite]
      by_cases hzero : signed s m + signed (!t) n = 0
      · rw [if_pos hzero, if_pos (by omega)]
        cases s <;> cases t <;> first | exact .inl rfl | exact .inr rfl
      · rw [if_neg hzero, if_neg (by omega), Int.natAbs_neg, neg_ofRatio]
        refine .inl (congrArg (ofRatio · _ 1) ?_)
        rw [← decide_not, decide_eq_decide]
        omega

/-! ### Products and quotients -/

theorem mul_comm (x y : Binary64) : x * y = y * x := by
  cases x with
  | nan => cases y <;> rfl
  | infinite s =>
    cases y with
    | nan => rfl
    | infinite t => cases s <;> cases t <;> rfl
    | finite t n hn => cases s <;> cases t <;> rfl
  | finite s m hm =>
    cases y with
    | nan => rfl
    | infinite t => cases s <;> cases t <;> rfl
    | finite t n hn =>
      have hsign : (s != t) = (t != s) := bne_comm
      rw [finite_mul_finite, finite_mul_finite, hsign, Nat.mul_comm]

theorem infinite_mul_finite (s t : Bool) {n : Nat} (hn : Representable n) :
    infinite s * finite t n hn = if n = 0 then nan else infinite (s != t) := rfl

theorem neg_mul (x y : Binary64) : -x * y = -(x * y) := by
  have hsign (s t : Bool) : ((!s) != t) = !(s != t) := by cases s <;> cases t <;> rfl
  cases x with
  | nan => rfl
  | infinite s =>
    have hneg : -infinite s = infinite (!s) := rfl
    cases y with
    | nan => rfl
    | infinite t => exact congrArg infinite (hsign s t)
    | finite t n hn =>
      rw [hneg, infinite_mul_finite, infinite_mul_finite, hsign]
      split <;> rfl
  | finite s m hm =>
    cases y with
    | nan => rfl
    | infinite t =>
      rw [neg_finite, mul_comm, mul_comm (finite s m hm), infinite_mul_finite, infinite_mul_finite,
        bne_comm, hsign, bne_comm (a := s)]
      split <;> rfl
    | finite t n hn =>
      rw [neg_finite, finite_mul_finite, finite_mul_finite, neg_ofRatio, hsign]

theorem mul_neg (x y : Binary64) : x * -y = -(x * y) := by
  rw [mul_comm, neg_mul, mul_comm y]

/-- A multiple of a square does not see the sign of the root. -/
theorem mul_neg_mul_neg (x y : Binary64) : x * -y * -y = x * y * y := by
  rw [mul_neg, mul_neg, neg_mul, neg_neg]

theorem neg_div (x y : Binary64) : -x / y = -(x / y) := by
  have hsign (s t : Bool) : ((!s) != t) = !(s != t) := by cases s <;> cases t <;> rfl
  cases x with
  | nan => rfl
  | infinite s =>
    cases y with
    | nan => rfl
    | infinite t => rfl
    | finite t n hn => exact congrArg infinite (hsign s t)
  | finite s m hm =>
    cases y with
    | nan => rfl
    | infinite t => exact congrArg (finite · 0 representable_zero) (hsign s t)
    | finite t n hn =>
      have hquotient (s : Bool) : finite s m hm / finite t n hn =
          if n = 0 then (if m = 0 then nan else infinite (s != t))
          else ofRatio (s != t) (m * unitsPerOne) n := by
        change Binary64.div _ _ = _
        rw [Binary64.div]
      rw [neg_finite, hquotient, hquotient, hsign]
      split
      · split <;> rfl
      · exact (neg_ofRatio _ _ _).symm

end FuzzyAlgebra.Binary64

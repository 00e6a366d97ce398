import FuzzyAlgebra.Proofs.Binary64.Resolution
import FuzzyAlgebra.Proofs.FuzzySet.Bounds
import Mathlib.Algebra.Order.Field.Basic
import Mathlib.Algebra.Order.Field.Rat
import Mathlib.Tactic.FieldSimp
import Mathlib.Tactic.Linarith

/-!
# Repeated complements

Numbers from one half to one lie on a grid of whole multiples of `2 ^ (-53)`, and the complement of
every degree is such a multiple: above one half the degree is one itself, below one half the
difference is rounded to one. On the grid complements are exact. So two complements round a degree
to the grid, by at most half its width, and every further pair of complements changes nothing.
-/

namespace FuzzyAlgebra

open Binary64

/-! ### The grid -/

namespace Operator

/-- The complement of a degree, both in units. -/
def complementUnits (m : Nat) : Nat := roundUnits (unitsPerOne - m) 1

theorem complementUnits_le (m : Nat) : complementUnits m ≤ unitsPerOne :=
  roundUnits_le_unitsPerOne Nat.one_pos (by omega)

variable {m e : Nat} (he : e + 53 = 1074)
include he

-- the exponent of the grid stays a variable, so that nothing evaluates its power
theorem unitsPerOne_eq_two_pow : unitsPerOne = 2 ^ (e + 53) := by
  rw [unitsPerOne, he]

theorem two_pow_dvd_sub (h : 2 ^ e ∣ m) : 2 ^ e ∣ unitsPerOne - m := by
  have hone : 2 ^ e ∣ unitsPerOne := by
    rw [unitsPerOne_eq_two_pow he]
    exact pow_dvd_pow 2 (Nat.le_add_right e 53)
  exact Nat.dvd_sub hone h

theorem complementUnits_of_dvd (h : 2 ^ e ∣ m) : complementUnits m = unitsPerOne - m := by
  apply roundUnits_one_of_dvd
  by_cases hzero : m = 0
  · simpa only [hzero, Nat.sub_zero] using spacing_dvd_unitsPerOne
  · have hpos := unitsPerOne_pos
    have hone := unitsPerOne_eq_two_pow he
    exact (spacing_dvd_of_lt_two_pow (by omega)).trans (two_pow_dvd_sub he h)

theorem two_pow_dvd_complementUnits (hspacing : spacing m ∣ m) (hle : m ≤ unitsPerOne) :
    2 ^ e ∣ complementUnits m := by
  have hone := unitsPerOne_eq_two_pow he
  have hhalves : 2 ^ (e + 53) = 2 * 2 ^ (e + 52) := Nat.pow_succ'
  by_cases hhalf : m ≤ 2 ^ (e + 52)
  · -- the difference is at least one half, where the numbers are the grid
    have hdvd := spacing_dvd_roundUnits_self (unitsPerOne - m) 1
    rw [Nat.div_one] at hdvd
    exact (two_pow_dvd_spacing (by omega)).trans hdvd
  · have hm : 2 ^ e ∣ m := (two_pow_dvd_spacing (by omega)).trans hspacing
    rw [complementUnits_of_dvd he hm]
    exact two_pow_dvd_sub he hm

theorem complementUnits_within (m : Nat) :
    2 * (unitsPerOne - m) ≤ 2 * complementUnits m + 2 ^ e ∧
      2 * complementUnits m ≤ 2 * (unitsPerOne - m) + 2 ^ e := by
  have hgrid : 0 < 2 ^ e := Nat.two_pow_pos e
  by_cases hzero : m = 0
  · rw [complementUnits_of_dvd he (hzero ▸ Nat.dvd_zero _)]
    omega
  · have hpos := unitsPerOne_pos
    have hone := unitsPerOne_eq_two_pow he
    have hspacing : spacing (unitsPerOne - m) ≤ 2 ^ e :=
      Nat.le_of_dvd hgrid (spacing_dvd_of_lt_two_pow (by omega))
    have hwithin := roundUnits_within (unitsPerOne - m) Nat.one_pos
    rw [Nat.div_one, Nat.one_mul, Nat.mul_one] at hwithin
    rw [complementUnits]
    omega

theorem complementUnits_complementUnits (hspacing : spacing m ∣ m) (hle : m ≤ unitsPerOne) :
    complementUnits (complementUnits m) = unitsPerOne - complementUnits m :=
  complementUnits_of_dvd he (two_pow_dvd_complementUnits he hspacing hle)

theorem complementUnits_complementUnits_eq_self_iff (hspacing : spacing m ∣ m)
    (hle : m ≤ unitsPerOne) : complementUnits (complementUnits m) = m ↔ 2 ^ e ∣ m := by
  rw [complementUnits_complementUnits he hspacing hle]
  constructor
  · intro h
    rw [← h]
    exact two_pow_dvd_sub he (two_pow_dvd_complementUnits he hspacing hle)
  · intro h
    rw [complementUnits_of_dvd he h, Nat.sub_sub_self hle]

theorem complementUnits_iterate (hspacing : spacing m ∣ m) (hle : m ≤ unitsPerOne) (n : Nat) :
    complementUnits^[2 * n + 1] m = complementUnits m := by
  have hdvd := two_pow_dvd_complementUnits he hspacing hle
  induction n with
  | zero => rfl
  | succ n ih =>
    calc complementUnits^[2 * n + 1 + 2] m
        = complementUnits (complementUnits (complementUnits m)) := by
          rw [Function.iterate_succ_apply', Function.iterate_succ_apply', ih]
      _ = unitsPerOne - (unitsPerOne - complementUnits m) := by
          rw [complementUnits_of_dvd he hdvd, complementUnits_of_dvd he (two_pow_dvd_sub he hdvd)]
      _ = complementUnits m := Nat.sub_sub_self (complementUnits_le m)

end Operator

/-! ### Degrees as exact numbers -/

namespace Degree

variable {d f : Degree} {e : Nat}

/-- The degree as an exact number. -/
def value (d : Degree) : ℚ := d.units / unitsPerOne

theorem value_eq_div (he : e + 53 = 1074) (d : Degree) :
    d.value = (d.units : ℚ) / 2 ^ e / 2 ^ 53 := by
  have hone : (unitsPerOne : ℚ) = 2 ^ e * 2 ^ 53 := by
    rw [unitsPerOne, ← he, pow_add]
    push_cast
    rfl
  rw [value, hone, div_mul_eq_div_div]

theorem exists_value_eq_iff (he : e + 53 = 1074) :
    (∃ k : ℤ, d.value = k / 2 ^ 53) ↔ 2 ^ e ∣ d.units := by
  have hiff (k : ℤ) : d.value = k / 2 ^ 53 ↔ (d.units : ℤ) = k * 2 ^ e := by
    rw [value_eq_div he, div_left_inj' (by positivity), div_eq_iff (by positivity)]
    norm_cast
  simp only [hiff]
  constructor
  · rintro ⟨k, hk⟩
    have hdvd : ((2 ^ e : Nat) : ℤ) ∣ d.units := ⟨k, by rw [hk, Int.mul_comm]; norm_cast⟩
    exact Int.natCast_dvd_natCast.mp hdvd
  · rintro ⟨k, hk⟩
    exact ⟨k, by rw [hk]; push_cast; ring⟩

theorem half_le_value_iff (he : e + 53 = 1074) : 1 / 2 ≤ d.value ↔ 2 ^ (e + 52) ≤ d.units := by
  have hpow : ((2 ^ (e + 52) : Nat) : ℚ) = 1 / 2 * 2 ^ 53 * 2 ^ e := by
    push_cast
    ring
  rw [value_eq_div he, le_div_iff₀ (by positivity), le_div_iff₀ (by positivity), ← hpow,
    Nat.cast_le]

theorem value_eq_zero_iff : d.value = 0 ↔ d.units = 0 := by
  have hone : (unitsPerOne : ℚ) ≠ 0 := Nat.cast_ne_zero.mpr unitsPerOne_pos.ne'
  rw [value, div_eq_zero_iff, or_iff_left hone, Nat.cast_eq_zero]

theorem abs_value_sub_le (he : e + 53 = 1074) (hle : 2 * d.units ≤ 2 * f.units + 2 ^ e)
    (hge : 2 * f.units ≤ 2 * d.units + 2 ^ e) : |f.value - d.value| ≤ 1 / 2 ^ 54 := by
  have hgrid : (0 : ℚ) < 2 ^ e := by positivity
  have hunits : |(f.units : ℚ) - d.units| ≤ 2 ^ e / 2 := by
    have hle' : (2 : ℚ) * d.units ≤ 2 * f.units + 2 ^ e := mod_cast hle
    have hge' : (2 : ℚ) * f.units ≤ 2 * d.units + 2 ^ e := mod_cast hge
    rw [abs_le]
    constructor <;> linarith
  calc |f.value - d.value| = |(f.units : ℚ) - d.units| / 2 ^ e / 2 ^ 53 := by
        rw [value_eq_div he, value_eq_div he, ← sub_div, ← sub_div, abs_div, abs_div,
          abs_of_pos hgrid, abs_of_pos (by positivity : (0 : ℚ) < 2 ^ 53)]
    _ ≤ 2 ^ e / 2 / 2 ^ e / 2 ^ 53 := by gcongr
    _ = 1 / 2 ^ 54 := by field_simp

theorem eqv_number_iff : f.number.eqv d.number = true ↔ f.units = d.units := by
  rw [eqv_iff_of_rank f.rank_number d.rank_number, Int.ofNat_inj]

end Degree

namespace FuzzySet

variable {τ : Type} [ClassHierarchy τ] {a s t : FuzzySet τ} {x : Value} {n : Nat}

/-- The set is what complementing another one so many times gives. -/
inductive Complemented (a : FuzzySet τ) : Nat → FuzzySet τ → Prop
  | none : Complemented a 0 a
  | next {n : Nat} {s t : FuzzySet τ} : Complemented a n s →
    Composed .complement s (.value .absent) .absent t → Complemented a (n + 1) t

theorem exists_complemented (a : FuzzySet τ) (n : Nat) : ∃ s, Complemented a n s := by
  induction n with
  | zero => exact ⟨a, .none⟩
  | succ n ih =>
    obtain ⟨s, hs⟩ := ih
    obtain ⟨t, ht, -⟩ := exists_combined_complement s
    exact ⟨t, hs.next ht.composed⟩

namespace Complemented

theorem leavesSucceed (h : Complemented a n s) (ha : a.LeavesSucceed x) : s.LeavesSucceed x := by
  induction h with
  | none => exact ha
  | next _ ht ih => exact ht.leavesSucceed_complement ih

theorem unitsAt_eq (h : Complemented a n s) (x : Value) :
    s.unitsAt x = Operator.complementUnits^[n] (a.unitsAt x) := by
  induction h with
  | none => rfl
  | next _ ht ih =>
    rw [ht.unitsAt_complement, ih, Function.iterate_succ_apply']
    rfl

theorem isPrimitive_eq_false (h : Complemented a (n + 1) s) : s.isPrimitive = false := by
  cases h with
  | next _ ht =>
    obtain ⟨label, cut, -, -, rfl⟩ := ht.exists_unary rfl
    rfl

theorem result_eq {j k : Nat} (hs : Complemented a (j + 1) s) (ht : Complemented a (k + 1) t)
    (ha : a.LeavesSucceed x) (h : Operator.complementUnits^[j + 1] (a.unitsAt x) =
      Operator.complementUnits^[k + 1] (a.unitsAt x)) :
    (s.membership x).result = (t.membership x).result := by
  rw [← hs.unitsAt_eq, ← ht.unitsAt_eq] at h
  obtain ⟨d, hd, hd'⟩ := exists_common_degree (hs.leavesSucceed ha) (ht.leavesSucceed ha)
    hs.isPrimitive_eq_false ht.isPrimitive_eq_false h
  rw [hd, hd']

end Complemented

/-- **Complementing is an involution on its image.** Every set can be complemented any number of
times. Where the leaves succeed, all odd numbers of complements give one and the same degree, and so
do all even ones but none. Two complements give the degree of the set itself if and only if that is
a whole multiple of `2 ^ (-53)`, as it is from one half on and at zero, and never miss it by more
than `2 ^ (-54)`. -/
theorem membership_complemented (a : FuzzySet τ) :
    (∀ n, ∃ s, Complemented a n s) ∧
    ∀ x : Value, (∀ leaf ∈ a.leaves, ∃ d, (leaf.membership x).result = .ok d) →
      ∃ d once twice : Degree, (a.membership x).result = .ok d ∧
        (∀ n s, Complemented a (2 * n + 1) s → (s.membership x).result = .ok once) ∧
        (∀ n s, Complemented a (2 * n + 2) s → (s.membership x).result = .ok twice) ∧
        (twice.number.eqv d.number = true ↔ ∃ k : ℤ, d.value = k / 2 ^ 53) ∧
        (1 / 2 ≤ d.value ∨ d.value = 0 → twice.number.eqv d.number = true) ∧
        |twice.value - d.value| ≤ 1 / 2 ^ 54 := by
  refine ⟨exists_complemented a, fun x ha => ?_⟩
  obtain ⟨e, he⟩ : ∃ e, e + 53 = 1074 := ⟨1021, rfl⟩
  obtain ⟨s, hs⟩ := exists_complemented a 1
  obtain ⟨t, ht⟩ := exists_complemented a 2
  obtain ⟨d, hd, hunits⟩ := LeavesSucceed.exists_degree ha
  obtain ⟨once, honce, -⟩ := (hs.leavesSucceed ha).exists_degree
  obtain ⟨twice, htwice, htwiceunits⟩ := (ht.leavesSucceed ha).exists_degree
  have hspacing := d.spacing_dvd_units
  have hle := d.units_le
  have hodd (n : Nat) := Operator.complementUnits_iterate he hspacing hle n
  have hsame : twice.units = Operator.complementUnits (Operator.complementUnits d.units) := by
    rw [htwiceunits, ht.unitsAt_eq, hunits]
    rfl
  have hiff : twice.number.eqv d.number = true ↔ 2 ^ e ∣ d.units := by
    rw [Degree.eqv_number_iff, hsame,
      Operator.complementUnits_complementUnits_eq_self_iff he hspacing hle]
  refine ⟨d, once, twice, hd, fun n u hu => ?_, fun n u hu => ?_, ?_, ?_, ?_⟩
  · rw [hu.result_eq hs ha (hunits ▸ hodd n), honce]
  · have heven : Operator.complementUnits^[2 * n + 1 + 1] (a.unitsAt x) =
        Operator.complementUnits^[1 + 1] (a.unitsAt x) := by
      rw [Function.iterate_succ_apply', ← hunits, hodd]
      rfl
    rw [hu.result_eq ht ha heven, htwice]
  · rw [hiff, Degree.exists_value_eq_iff he]
  · rw [hiff, Degree.half_le_value_iff he, Degree.value_eq_zero_iff]
    rintro (hhalf | hzero)
    · exact (two_pow_dvd_spacing hhalf).trans hspacing
    · rw [hzero]
      exact Nat.dvd_zero _
  · have hwithin := Operator.complementUnits_within he d.units
    rw [Operator.complementUnits_complementUnits he hspacing hle] at hsame
    exact Degree.abs_value_sub_le he (by omega) (by omega)

/-- One tenth is no multiple of `2 ^ (-53)`: two complements move it, and a third one gives the same
degree as the first. -/
theorem membership_complemented_tenth :
    let tenth : Degree := .clipped (.ofQuotient 1 10) (isNaN_ofRatio _ _ _)
    let a : FuzzySet ElementType := .primitive ⟨1, .text "tame", some .dog⟩ .identity
    let complement (key : Nat) (s : FuzzySet ElementType) : FuzzySet ElementType :=
      .unary ⟨key, .absent, s.elementType⟩ ⟨.complement, ⟨none, rfl⟩, rfl⟩ s
    let b := complement 2 a
    let c := complement 3 b
    let x : Value := .degree tenth
    Complemented a 1 b ∧ Complemented a 2 c ∧ Complemented a 3 (complement 4 c) ∧
      a.LeavesSucceed x ∧
      (∃ once, (b.membership x).result = .ok once ∧
        ((complement 4 c).membership x).result = .ok once) ∧
      ∃ twice, (c.membership x).result = .ok twice ∧ ¬ twice.number.eqv tenth.number = true ∧
        |twice.value - tenth.value| ≤ 1 / 2 ^ 54 := by
  intro tenth a complement b c x
  have hb : Complemented a 1 b := .next .none ⟨2, .operator .complement, .absent, rfl, rfl⟩
  have hc : Complemented a 2 c := .next hb ⟨3, .text "Complement", .absent, rfl, rfl⟩
  have hd : Complemented a 3 (complement 4 c) :=
    .next hc ⟨4, .operator .complement, .absent, rfl, rfl⟩
  have ha : a.LeavesSucceed x := leavesSucceed_of_result rfl
  obtain ⟨d, once, twice, hresult, hodd, heven, hiff, -, hwithin⟩ :=
    (membership_complemented a).2 x ha
  have htenth : tenth = d := Except.ok.inj hresult
  rw [← htenth] at hiff hwithin
  have hmoved : ¬ twice.number.eqv tenth.number = true := by
    rw [hiff, Degree.exists_value_eq_iff (rfl : 1021 + 53 = 1074)]
    decide +kernel
  exact ⟨hb, hc, hd, ha, ⟨once, hodd 0 b hb, hodd 1 _ hd⟩, twice, heven 0 c hc, hmoved, hwithin⟩

end FuzzySet

end FuzzyAlgebra

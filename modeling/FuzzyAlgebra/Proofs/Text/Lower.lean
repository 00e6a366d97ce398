import FuzzyAlgebra.Text.Lower

/-!
# Lower case and ASCII

The lower case of a character of ASCII does not depend on what stands around it. Outside ASCII, the
lower case holds a character outside ASCII again, with one exception: the table leads into ASCII
from the Kelvin sign only, and to the letter `k`. So a word of ASCII without a `k` is the lower case
of those texts alone that are this word up to the case of ASCII letters.
-/

namespace FuzzyAlgebra.Text

variable {c : Char} {cs before after word : List Char} {n : Nat} {r : CaseRun}

/-! ### Runs of capital letters -/

namespace CaseRun

/-- The run that holds the Kelvin sign alone. -/
def kelvin : CaseRun := ⟨8490, 8490, 1, 107⟩

theorem eq_kelvin_or_le_small (hr : r ∈ all) : r = kelvin ∨ 128 ≤ r.small := by
  have hall : ∀ r ∈ all, r = kelvin ∨ 128 ≤ r.small := by decide +kernel
  exact hall r hr

theorem bounds_of_contains (h : r.contains n = true) : r.first ≤ n ∧ n ≤ r.last := by
  simp only [contains, Bool.and_eq_true, decide_eq_true_eq] at h
  exact h.1

/-- No run of small letters touches the surrogates or goes past the last code point. -/
theorem isValidChar_smallOf (hr : r ∈ all) (hn : r.contains n = true) :
    (r.smallOf n).isValidChar := by
  have hall : ∀ r ∈ all, r.small + (r.last - r.first) < 0xd800 ∨
      0xdfff < r.small ∧ r.small + (r.last - r.first) < 0x110000 := by decide +kernel
  have hlast := (bounds_of_contains hn).2
  unfold smallOf Nat.isValidChar
  rcases hall r hr with hlow | ⟨hfirst, hhigh⟩
  · left
    omega
  · right
    omega

theorem toNat_smallOf (hr : r ∈ all) (hn : r.contains n = true) :
    (Char.ofNat (r.smallOf n)).toNat = r.smallOf n := by
  rw [Char.ofNat, dif_pos (isValidChar_smallOf hr hn)]
  rfl

end CaseRun

theorem smallLetter_kelvin : smallLetter '\u212a' = 'k' := by decide +kernel

theorem le_toNat_smallLetter (hc : 128 ≤ c.toNat) (hkelvin : c ≠ '\u212a') :
    128 ≤ (smallLetter c).toNat := by
  unfold smallLetter
  cases hfind : CaseRun.all.find? fun r => r.contains c.toNat with
  | none => exact hc
  | some r =>
    have hr : r ∈ CaseRun.all := List.mem_of_find?_eq_some hfind
    have hcontains := List.find?_some hfind
    dsimp only
    rw [CaseRun.toNat_smallOf hr hcontains]
    rcases CaseRun.eq_kelvin_or_le_small hr with rfl | hsmall
    · obtain ⟨hfirst, hlast⟩ := CaseRun.bounds_of_contains hcontains
      have hcode : c.toNat = '\u212a'.toNat := Nat.le_antisymm hlast hfirst
      exact absurd (Char.toNat_inj.mp hcode) hkelvin
    · exact Nat.le_trans hsmall (Nat.le_add_right _ _)

/-! ### Characters and texts -/

theorem toLower_of_le (hc : 128 ≤ c.toNat) : c.toLower = c := by
  unfold Char.toLower
  apply dif_neg
  rintro ⟨-, hle⟩
  have hcapital : c.toNat ≤ 'Z'.toNat := UInt32.le_iff_toNat_le.mp hle
  exact absurd (Nat.le_trans hc hcapital) (by decide)

theorem toNat_lt_of_toLower (h : c.toLower.toNat < 128) : c.toNat < 128 := by
  rcases Nat.lt_or_ge c.toNat 128 with hc | hc
  · exact hc
  · rwa [toLower_of_le hc] at h

theorem lowerAt_of_ascii (hc : c.toNat < 128) : lowerAt before c after = [c.toLower] := if_pos hc

/-- Outside ASCII a lower case is told by a character outside ASCII, or it is the letter `k`. -/
theorem exists_mem_lowerAt (hc : 128 ≤ c.toNat) :
    ∃ d ∈ lowerAt before c after, 128 ≤ d.toNat ∨ d = 'k' := by
  rw [lowerAt, if_neg (Nat.not_lt.mpr hc)]
  by_cases hdotted : c = '\u0130'
  · rw [if_pos hdotted]
    exact ⟨'\u0307', by simp, .inl (by decide)⟩
  · rw [if_neg hdotted]
    split
    · exact ⟨'\u03c2', by simp, .inl (by decide)⟩
    · refine ⟨smallLetter c, by simp, ?_⟩
      by_cases hkelvin : c = '\u212a'
      · right
        rw [hkelvin, smallLetter_kelvin]
      · left
        exact le_toNat_smallLetter hc hkelvin

theorem lowerAfter_of_ascii (h : ∀ c ∈ cs, c.toNat < 128) :
    lowerAfter before cs = cs.map Char.toLower := by
  -- What stands before the rest grows along the text, so nothing is said about it.
  induction cs generalizing before with
  | nil => rfl
  | cons c cs ih =>
    obtain ⟨hc, hcs⟩ := List.forall_mem_cons.mp h
    rw [lowerAfter, lowerAt_of_ascii hc, ih hcs]
    rfl

theorem exists_mem_lowerAfter (hmem : c ∈ cs) (hc : 128 ≤ c.toNat) :
    ∃ d ∈ lowerAfter before cs, 128 ≤ d.toNat ∨ d = 'k' := by
  induction cs generalizing before with
  | nil => cases hmem
  | cons a cs ih =>
    rw [lowerAfter]
    rcases List.mem_cons.mp hmem with rfl | hmem
    · obtain ⟨d, hd, hout⟩ := exists_mem_lowerAt hc
      exact ⟨d, List.mem_append_left _ hd, hout⟩
    · obtain ⟨d, hd, hout⟩ := ih hmem
      exact ⟨d, List.mem_append_right _ hd, hout⟩

theorem lowerChars_of_ascii (h : ∀ c ∈ cs, c.toNat < 128) : lowerChars cs = cs.map Char.toLower :=
  lowerAfter_of_ascii h

theorem ascii_of_lowerChars (h : ∀ d ∈ lowerChars cs, d.toNat < 128 ∧ d ≠ 'k') :
    ∀ c ∈ cs, c.toNat < 128 := by
  intro c hmem
  rcases Nat.lt_or_ge c.toNat 128 with hc | hc
  · exact hc
  · obtain ⟨d, hd, hout⟩ : ∃ d ∈ lowerChars cs, 128 ≤ d.toNat ∨ d = 'k' :=
      exists_mem_lowerAfter hmem hc
    obtain ⟨hascii, hk⟩ := h d hd
    rcases hout with hout | hout
    · exact absurd hascii (Nat.not_lt.mpr hout)
    · exact absurd hout hk

theorem ascii_of_map_toLower (h : ∀ d ∈ cs.map Char.toLower, d.toNat < 128) :
    ∀ c ∈ cs, c.toNat < 128 :=
  fun _ hmem => toNat_lt_of_toLower (h _ (List.mem_map_of_mem hmem))

/-- **Lower case into ASCII.** A word of ASCII without a `k` is the lower case of the texts that
differ from it in the case of ASCII letters only. -/
theorem lowerChars_eq_iff (hword : ∀ d ∈ word, d.toNat < 128 ∧ d ≠ 'k') :
    lowerChars cs = word ↔ cs.map Char.toLower = word := by
  constructor
  · rintro rfl
    exact (lowerChars_of_ascii (ascii_of_lowerChars hword)).symm
  · rintro rfl
    exact lowerChars_of_ascii (ascii_of_map_toLower fun d hd => (hword d hd).1)

/-- Without the condition on `k`, a Kelvin sign could stand for one. -/
example : lowerChars ['O', '\u212a'] = ['o', 'k'] := by decide +kernel

end FuzzyAlgebra.Text

import FuzzyAlgebra.Operator.Degrees
import FuzzyAlgebra.Proofs.Text.Lower

/-!
# Names of operators

An operator is looked up by its label, written with or without underscores; a hyphen counts as an
underscore, and case does not count. The comparison is made in lower case over all characters. As no
label holds a `k`, this lets in nothing but the labels themselves in any case of their ASCII letters.
No two operators share a spelling, so the search finds the same operator in whatever order it goes.
-/

namespace FuzzyAlgebra.Operator

variable {op other : Operator} {name : String} {word : List Char} {order : List Operator}

theorem mem_all (op : Operator) : op ∈ all := by
  cases op <;> decide

/-- A name with its ASCII letters in lower case and underscores for hyphens. -/
def plainName (name : String) : List Char :=
  name.toList.map fun c => if c = '-' then '_' else c.toLower

/-- The name is the label, with or without underscores, up to the case of ASCII letters and to
hyphens in place of underscores. -/
def Spells (name : String) (op : Operator) : Prop :=
  plainName name = op.label.toList ∨ plainName name = op.label.toList.filter (· ≠ '_')

/-- The comparison that the search makes: whether the operator answers to the name. -/
def answersTo (name : String) (op : Operator) : Bool :=
  nameKey name = op.label.toList ∨ nameKey name = op.compactLabel

/-! ### Spellings -/

def spellings (op : Operator) : List (List Char) := [op.label.toList, op.compactLabel]

theorem spells_iff : Spells name op ↔ plainName name ∈ op.spellings := by
  simp [Spells, spellings, compactLabel]

theorem ascii_of_mem_spellings (h : word ∈ op.spellings) : ∀ d ∈ word, d.toNat < 128 ∧ d ≠ 'k' := by
  -- Written with `List.all`: a quantifier over characters is decided by trying every character.
  have hall : ∀ op ∈ all, ∀ word ∈ op.spellings,
      (word.all fun d => d.toNat < 128 && d ≠ 'k') = true := by
    decide +kernel
  simpa using hall op op.mem_all word h

theorem eq_of_mem_spellings (h : word ∈ op.spellings) (hother : word ∈ other.spellings) :
    op = other := by
  have hall : ∀ op ∈ all, ∀ other ∈ all, ∀ word ∈ op.spellings, word ∈ other.spellings →
      op = other := by
    decide +kernel
  exact hall op op.mem_all other other.mem_all word h hother

theorem plainName_eq_map (name : String) :
    plainName name = (name.toList.map fun c => if c = '-' then '_' else c).map Char.toLower := by
  rw [plainName, List.map_map]
  apply List.map_congr_left
  intro c _
  by_cases hc : c = '-' <;> simp [hc]

theorem nameKey_eq_iff (hword : ∀ d ∈ word, d.toNat < 128 ∧ d ≠ 'k') :
    nameKey name = word ↔ plainName name = word := by
  rw [nameKey, plainName_eq_map]
  exact Text.lowerChars_eq_iff hword

theorem answersTo_iff : answersTo name op = true ↔ Spells name op := by
  have hlabel : op.label.toList ∈ op.spellings := by simp [spellings]
  have hcompact : op.compactLabel ∈ op.spellings := by simp [spellings]
  rw [answersTo, decide_eq_true_eq, nameKey_eq_iff (ascii_of_mem_spellings hlabel),
    nameKey_eq_iff (ascii_of_mem_spellings hcompact)]
  rfl

theorem Spells.unique (h : Spells name op) (hother : Spells name other) : op = other :=
  eq_of_mem_spellings (spells_iff.mp h) (spells_iff.mp hother)

/-- A name that spells an operator is written in ASCII. -/
theorem Spells.ascii (h : Spells name op) : ∀ c ∈ name.toList, c.toNat < 128 := by
  intro c hmem
  have hplain : (if c = '-' then '_' else c.toLower) ∈ plainName name :=
    List.mem_map_of_mem hmem
  have hc := (ascii_of_mem_spellings (spells_iff.mp h) _ hplain).1
  by_cases hhyphen : c = '-'
  · subst hhyphen
    decide
  · rw [if_neg hhyphen] at hc
    exact Text.toNat_lt_of_toLower hc

/-! ### The search -/

theorem find?_answersTo_eq_some_iff (horder : ∀ op, op ∈ order) :
    order.find? (answersTo name) = some op ↔ Spells name op := by
  constructor
  · intro hfind
    exact answersTo_iff.mp (List.find?_some hfind)
  · intro hspells
    cases hfind : order.find? (answersTo name) with
    | none =>
      have hnone := List.find?_eq_none.mp hfind op (horder op)
      exact absurd (answersTo_iff.mpr hspells) hnone
    | some found =>
      have hfound : Spells name found := answersTo_iff.mp (List.find?_some hfind)
      rw [hfound.unique hspells]

theorem ofName?_eq_some_iff : ofName? name = some op ↔ Spells name op :=
  find?_answersTo_eq_some_iff mem_all

theorem ofName?_eq_none_iff : ofName? name = none ↔ ∀ op, ¬ Spells name op := by
  simp only [Option.eq_none_iff_forall_ne_some, ne_eq, ofName?_eq_some_iff]

theorem named_eq_ok_iff : named (.text name) = .ok op ↔ ofName? name = some op := by
  rw [named]
  cases ofName? name <;> simp

theorem named_eq_error_iff {e : Fault} :
    named (.text name) = .error e ↔ ofName? name = none ∧ e = .failure (.unknownOperator name) := by
  rw [named]
  cases ofName? name <;> simp [eq_comm]

/-- **Looking up an operator.** A name is taken for the operator that it spells, and a name that
spells none is an unknown operator. A name with a character outside ASCII spells none. No two
operators answer to one name, so the search comes out the same in every order of the operators. -/
theorem named_outcome (name : String) :
    (∀ op, named (.text name) = .ok op ↔ Spells name op) ∧
    ((∃ f, named (.text name) = .error (.failure f) ∧ f.kind = .validation ∧
      f.code.text = "OPERATOR-Unknown") ↔ ∀ op, ¬ Spells name op) ∧
    ((∃ c ∈ name.toList, 128 ≤ c.toNat) → ∀ op, named (.text name) ≠ .ok op) ∧
    (∀ op other, answersTo name op = true → answersTo name other = true → op = other) ∧
    (∀ order : List Operator, order.Perm all → order.find? (answersTo name) = ofName? name) := by
  have hok (op : Operator) : named (.text name) = .ok op ↔ Spells name op :=
    named_eq_ok_iff.trans ofName?_eq_some_iff
  refine ⟨hok, ?_, ?_, ?_, ?_⟩
  · rw [← ofName?_eq_none_iff]
    constructor
    · rintro ⟨f, hf, -⟩
      exact (named_eq_error_iff.mp hf).1
    · intro hnone
      exact ⟨_, named_eq_error_iff.mpr ⟨hnone, rfl⟩, rfl, rfl⟩
  · rintro ⟨c, hmem, hc⟩ op hop
    have hascii : c.toNat < 128 := ((hok op).mp hop).ascii c hmem
    exact absurd hascii (Nat.not_lt.mpr hc)
  · intro op other hop hother
    exact (answersTo_iff.mp hop).unique (answersTo_iff.mp hother)
  · intro order horder
    have hmem (op : Operator) : op ∈ order := horder.mem_iff.mpr op.mem_all
    ext op
    rw [find?_answersTo_eq_some_iff hmem, ofName?_eq_some_iff]

/-- Underscores can be left out of a name, but none can be put in. -/
example : named (.text "ALPHA-Cut") = .ok .alphaCut ∧ named (.text "AlphaCut") = .ok .alphaCut ∧
    named (.text "un-ion") = .error (.failure (.unknownOperator "un-ion")) :=
  ⟨rfl, rfl, rfl⟩

end FuzzyAlgebra.Operator

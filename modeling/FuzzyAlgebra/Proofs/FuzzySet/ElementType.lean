import FuzzyAlgebra.Proofs.ElementType
import FuzzyAlgebra.Proofs.FuzzySet.Combine
import FuzzyAlgebra.Proofs.FuzzySet.Evaluation

/-!
# Element types over whole graphs

A combination looks at the element types of its operands only, and takes the more general one. As
subclassing is transitive, what it takes is above the types of all leaves below it and is the type
of one of them; as it is antisymmetric, the order of the operands does not matter.
-/

namespace FuzzyAlgebra.FuzzySet

open ClassHierarchy

variable {τ : Type} [ClassHierarchy τ] {t u v : Option τ} {a b s : FuzzySet τ}

/-! ### The more general type -/

/-- One of the types is unknown, or one is above the other. -/
def Comparable (t u : Option τ) : Prop :=
  t = none ∨ u = none ∨
    ∃ x y, t = some x ∧ u = some y ∧ (isSubclass x y = true ∨ isSubclass y x = true)

theorem Comparable.symm (h : Comparable t u) : Comparable u t := by
  rcases h with ht | hu | ⟨x, y, hx, hy, hle⟩
  · exact .inr (.inl ht)
  · exact .inl hu
  · exact .inr (.inr ⟨y, x, hy, hx, hle.symm⟩)

/-- The first type is unknown, or it has the second one above it. -/
def Below (t u : Option τ) : Prop := ∀ x, t = some x → ∃ y, u = some y ∧ isSubclass x y = true

theorem below_none (t : Option τ) : Below none t := nofun

theorem below_some {x y : τ} (h : isSubclass x y = true) : Below (some x) (some y) := by
  intro z hz
  cases hz
  exact ⟨y, rfl, h⟩

theorem generalType_none_right (t : Option τ) : generalType t none = some t := by
  cases t <;> rfl

theorem generalType_some (x y : τ) :
    generalType (some x) (some y) =
      if isSubclass x y then some (some y) else if isSubclass y x then some (some x) else none :=
  rfl

theorem exists_generalType_iff : (∃ v, generalType t u = some v) ↔ Comparable t u := by
  cases t with
  | none => exact ⟨fun _ => .inl rfl, fun _ => ⟨u, rfl⟩⟩
  | some x =>
    cases u with
    | none => exact ⟨fun _ => .inr (.inl rfl), fun _ => ⟨some x, rfl⟩⟩
    | some y =>
      rw [generalType_some]
      by_cases hxy : isSubclass x y = true
      · simp [Comparable, hxy]
      · by_cases hyx : isSubclass y x = true
        · simp [Comparable, hxy, hyx]
        · simp [Comparable, hxy, hyx]

/-- One of the two types is taken, and the other one is below it. -/
theorem generalType_cases (h : generalType t u = some v) :
    (v = t ∧ Below u t) ∨ (v = u ∧ Below t u) := by
  cases t with
  | none =>
    cases h
    exact .inr ⟨rfl, below_none _⟩
  | some x =>
    cases u with
    | none =>
      cases h
      exact .inl ⟨rfl, below_none _⟩
    | some y =>
      rw [generalType_some] at h
      split at h
      · rename_i hxy
        cases h
        exact .inr ⟨rfl, below_some hxy⟩
      · split at h
        · rename_i hyx
          cases h
          exact .inl ⟨rfl, below_some hyx⟩
        · cases h

/-- Besides their types only the names can keep two sets apart, where a label is made of them. -/
theorem exists_combine_binary_iff {op : Operator} {key : Nat} {name : Value}
    (hop : op.isBinary = true) :
    (∃ s, (combine key (.set a) (.operator op) (.set b) .absent name).result = .ok s) ↔
      Comparable a.elementType b.elementType ∧ Labelled name [a, b] := by
  have hlabel (t : Option τ) :
      (∃ v, (binary ⟨key, name, t⟩ ⟨op, hop⟩ a b).describe = .ok v) ↔ Labelled name [a, b] :=
    exists_describe_iff
  simp only [result_combine_eq_ok_iff, result_makeComposite_binary hop, ← exists_generalType_iff]
  constructor
  · rintro ⟨s, ⟨t, ht, rfl⟩, hs⟩
    exact ⟨⟨t, ht⟩, (hlabel t).mp hs⟩
  · rintro ⟨⟨t, ht⟩, hnames⟩
    exact ⟨_, ⟨t, ht, rfl⟩, (hlabel t).mpr hnames⟩

variable [LawfulHierarchy τ]

theorem Below.trans (htu : Below t u) (huv : Below u v) : Below t v := by
  intro x hx
  obtain ⟨y, hy, hxy⟩ := htu x hx
  obtain ⟨z, hz, hyz⟩ := huv y hy
  exact ⟨z, hz, LawfulHierarchy.trans x y z hxy hyz⟩

theorem generalType_comm (t u : Option τ) : generalType t u = generalType u t := by
  cases t with
  | none => exact (generalType_none_right u).symm
  | some x =>
    cases u with
    | none => rfl
    | some y =>
      rw [generalType_some, generalType_some]
      by_cases hxy : isSubclass x y = true
      · by_cases hyx : isSubclass y x = true
        · rw [LawfulHierarchy.antisymm x y hxy hyx]
        · rw [if_pos hxy, if_neg hyx, if_pos hxy]
      · rw [if_neg hxy, if_neg hxy]

/-- The type is one of the known ones among the types, and all of these are below it. Where none is
known, it is unknown itself. -/
structure MostGeneral (t : Option τ) (types : List (Option τ)) : Prop where
  mem : ∀ x, t = some x → some x ∈ types
  bounds : ∀ u ∈ types, Below u t

theorem mostGeneral_singleton (t : Option τ) : MostGeneral t [t] where
  mem := by
    intro x hx
    rw [hx]
    exact List.mem_singleton_self _
  bounds := by
    intro u hu
    rw [List.mem_singleton.mp hu]
    exact fun x hx => ⟨x, hx, LawfulHierarchy.refl x⟩

omit [LawfulHierarchy τ] in
theorem MostGeneral.eq_none_iff {types : List (Option τ)} (h : MostGeneral t types) :
    t = none ↔ ∀ u ∈ types, u = none := by
  constructor
  · intro ht u hu
    cases u with
    | none => rfl
    | some y =>
      obtain ⟨x, hx, -⟩ := h.bounds _ hu y rfl
      rw [ht] at hx
      cases hx
  · intro hnone
    cases t with
    | none => rfl
    | some x => exact hnone _ (h.mem x rfl)

theorem MostGeneral.append {types types' : List (Option τ)} (ht : MostGeneral t types)
    (hu : MostGeneral u types') (hv : generalType t u = some v) :
    MostGeneral v (types ++ types') := by
  rcases generalType_cases hv with ⟨rfl, hbelow⟩ | ⟨rfl, hbelow⟩
  · refine ⟨fun x hx => List.mem_append_left _ (ht.mem x hx), fun w hw => ?_⟩
    rcases List.mem_append.mp hw with hw | hw
    · exact ht.bounds w hw
    · exact (hu.bounds w hw).trans hbelow
  · refine ⟨fun x hx => List.mem_append_right _ (hu.mem x hx), fun w hw => ?_⟩
    rcases List.mem_append.mp hw with hw | hw
    · exact (ht.bounds w hw).trans hbelow
    · exact hu.bounds w hw

/-! ### Sets built step by step -/

omit [LawfulHierarchy τ] in
/-- What calls of `primitive` and `combine` can build out of nothing, whatever else they get. -/
inductive Built : FuzzySet τ → Prop
  | primitive (key : Nat) (function : FunctionArgument) (tag : TagArgument τ) (name : Value)
    {s : FuzzySet τ} : (ofFunction key function tag name).result = .ok s → Built s
  | combine (key : Nat) (first : Operand τ) (operator : Value) (second : Operand τ)
    (threshold name : Value) {s : FuzzySet τ} :
    (∀ a, first = .set a → Built a) → (∀ b, second = .set b → Built b) →
      (FuzzySet.combine key first operator second threshold name).result = .ok s → Built s

theorem Built.mostGeneral (h : Built s) :
    MostGeneral s.elementType (s.leaves.map elementType) := by
  induction h with
  | primitive _ _ _ _ hmade =>
    obtain ⟨t, f, rfl⟩ := exists_of_ofFunction hmade
    exact mostGeneral_singleton _
  | combine _ _ _ _ _ _ _ _ hmade ihfirst ihsecond =>
    rcases cases_of_combine hmade with ⟨a, operation, hfirst, rfl⟩ |
      ⟨a, b, t, operation, hfirst, hsecond, htype, rfl⟩
    · exact ihfirst a hfirst
    · rw [leaves, List.map_append]
      exact (ihfirst a hfirst).append (ihsecond b hsecond) htype

/-- **Element types over whole graphs.** A set that was built step by step has no element type if
none of its leaves has one; otherwise it has the type of one of them, which is above those of all
others. A binary operator accepts two sets in both orders or in none, and then gives the same type
in both. It accepts them if and only if their types are comparable and a label can be made for the
combination; where names are texts or left out, as they are meant to be, it can. -/
theorem elementType_of_built :
    (∀ s : FuzzySet τ, Built s →
      (s.elementType = none ↔ ∀ leaf ∈ s.leaves, leaf.elementType = none) ∧
      ∀ x, s.elementType = some x →
        (∃ leaf ∈ s.leaves, leaf.elementType = some x) ∧
        ∀ leaf ∈ s.leaves, ∀ y, leaf.elementType = some y → isSubclass y x = true) ∧
    ∀ op : Operator, op.isBinary = true → ∀ (a b : FuzzySet τ) (key key' : Nat) (name : Value),
      ((∃ s, (combine key (.set a) (.operator op) (.set b) .absent name).result = .ok s) ↔
        ∃ s, (combine key' (.set b) (.operator op) (.set a) .absent name).result = .ok s) ∧
      ((∃ s, (combine key (.set a) (.operator op) (.set b) .absent name).result = .ok s) ↔
        Comparable a.elementType b.elementType ∧ Labelled name [a, b]) ∧
      (name.IsOptionalText → a.name.IsOptionalText → b.name.IsOptionalText →
        ((∃ s, (combine key (.set a) (.operator op) (.set b) .absent name).result = .ok s) ↔
          Comparable a.elementType b.elementType)) ∧
      ∀ s s', (combine key (.set a) (.operator op) (.set b) .absent name).result = .ok s →
        (combine key' (.set b) (.operator op) (.set a) .absent name).result = .ok s' →
        s.elementType = s'.elementType := by
  constructor
  · intro s hs
    have hgeneral := hs.mostGeneral
    refine ⟨?_, fun x hx => ⟨?_, fun leaf hleaf y hy => ?_⟩⟩
    · rw [hgeneral.eq_none_iff, List.forall_mem_map]
    · exact List.mem_map.mp (hgeneral.mem x hx)
    · obtain ⟨z, hz, hyz⟩ := hgeneral.bounds _ (List.mem_map_of_mem hleaf) y hy
      rw [hx] at hz
      cases hz
      exact hyz
  · intro op hop a b key key' name
    refine ⟨?_, exists_combine_binary_iff hop, fun hname ha hb => ?_, fun s s' hs hs' => ?_⟩
    · rw [exists_combine_binary_iff hop, exists_combine_binary_iff hop]
      exact and_congr ⟨Comparable.symm, Comparable.symm⟩ labelled_pair_comm
    · have hlabelled : Labelled name [a, b] := labelled_of_optionalText hname
        (List.forall_mem_cons.mpr ⟨ha, fun c hc => List.mem_singleton.mp hc ▸ hb⟩)
      rw [exists_combine_binary_iff hop, and_iff_left hlabelled]
    · obtain ⟨t, ht, rfl⟩ := (result_makeComposite_binary hop).mp (result_combine_eq_ok_iff.mp hs).1
      obtain ⟨t', ht', rfl⟩ :=
        (result_makeComposite_binary hop).mp (result_combine_eq_ok_iff.mp hs').1
      rw [generalType_comm, ht'] at ht
      exact (Option.some.inj ht).symm

/-- Puppies and a set of unknown type, and animals over both; dogs and pets do not combine. -/
theorem elementType_of_built_mixed :
    let puppies : FuzzySet ElementType := .primitive ⟨1, .text "young", some .puppy⟩ .identity
    let unknown : FuzzySet ElementType := .primitive ⟨2, .absent, none⟩ .identity
    let animals : FuzzySet ElementType := .primitive ⟨3, .absent, some .animal⟩ .identity
    let both := .binary ⟨4, .absent, some .puppy⟩ ⟨.union, rfl⟩ puppies unknown
    let all := .binary ⟨5, .absent, some .animal⟩ ⟨.difference, rfl⟩ animals both
    let dogs : FuzzySet ElementType := .primitive ⟨6, .absent, some .dog⟩ .identity
    let pets : FuzzySet ElementType := .primitive ⟨7, .absent, some .pet⟩ .identity
    LawfulHierarchy ElementType ∧ Built all ∧ all.elementType = some .animal ∧
      (∀ leaf ∈ all.leaves, ∀ y, leaf.elementType = some y →
        isSubclass y ElementType.animal = true) ∧
      Operator.isBinary .add = true ∧ dogs.name.IsOptionalText ∧ pets.name.IsOptionalText ∧
      ¬ ∃ s,
        (combine 8 (.set dogs) (.operator .add) (.set pets) .absent .absent).result = .ok s := by
  intro puppies unknown animals both all dogs pets
  have hpuppies : Built puppies :=
    .primitive 1 (.function .identity) (.tag .puppy) (.text "young") rfl
  have hunknown : Built unknown := .primitive 2 (.function .identity) .absent .absent rfl
  have hanimals : Built animals := .primitive 3 (.function .identity) (.tag .animal) .absent rfl
  have hboth : Built both := .combine 4 (.set puppies) (.operator .union) (.set unknown) .absent
    .absent (fun _ h => Operand.set.inj h ▸ hpuppies) (fun _ h => Operand.set.inj h ▸ hunknown) rfl
  have hall : Built all := .combine 5 (.set animals) (.operator .difference) (.set both) .absent
    .absent (fun _ h => Operand.set.inj h ▸ hanimals) (fun _ h => Operand.set.inj h ▸ hboth) rfl
  obtain ⟨hgraph, haccepted⟩ := @elementType_of_built ElementType _ _
  have hnone : Value.absent.IsOptionalText := .inl rfl
  refine ⟨inferInstance, hall, rfl, ((hgraph all hall).2 .animal rfl).2, rfl, hnone, hnone, ?_⟩
  rw [(haccepted .add rfl dogs pets 8 9 .absent).2.2.1 hnone hnone hnone]
  rintro (h | h | ⟨x, y, hx, hy, hle⟩)
  · cases h
  · cases h
  · cases hx
    cases hy
    revert hle
    decide

/-- Two sets of no type do not combine, as the first one is named by a number. -/
theorem elementType_of_built_unlabelled :
    let named : FuzzySet ElementType := .primitive ⟨1, .int 5, none⟩ .identity
    let unnamed : FuzzySet ElementType := .primitive ⟨2, .absent, none⟩ .identity
    Built named ∧ Built unnamed ∧ Operator.isBinary .union = true ∧
      Comparable named.elementType unnamed.elementType ∧
      (combine 3 (.set named) (.operator .union) (.set unnamed) .absent .absent).result =
        .error (.mishap .wrongType) := by
  intro named unnamed
  have hnamed : (ofFunction 1 (.function .identity) (.absent : TagArgument ElementType)
      (.int 5)).result = .ok named :=
    result_ofFunction_eq_ok_iff.mpr ⟨rfl, .int 5, rfl⟩
  exact ⟨.primitive 1 _ _ _ hnamed, .primitive 2 (.function .identity) .absent .absent rfl, rfl,
    .inl rfl, rfl⟩

end FuzzyAlgebra.FuzzySet

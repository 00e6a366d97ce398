import FuzzyAlgebra.Proofs.Definitions.Load

/-!
# What becomes of a document

A definition out of order decides before everything else, wherever it stands. Where there is none,
every entry outside of the schema is told about, entry by entry; where there is no such entry
either, and at least one entry, the document is taken as it stands.
-/

namespace FuzzyAlgebra

/-- Values made of nothing, numbers and texts by lists, tuples and dictionaries, of which the last
hold each key once. -/
inductive Value.Plain : Value → Prop
  | absent : Plain .absent
  | number {v : Value} : v.isNumber = true → Plain v
  | text (s : String) : Plain (.text s)
  | list {items : List Value} : (∀ v ∈ items, Plain v) → Plain (.list items)
  | tuple {items : List Value} : (∀ v ∈ items, Plain v) → Plain (.tuple items)
  | dict {entries : List (Value × Value)} :
    (∀ entry ∈ entries, Plain entry.1) → (∀ entry ∈ entries, Plain entry.2) →
      entries.Pairwise (fun entry other => sameKey entry.1 other.1 = false) → Plain (.dict entries)

theorem Value.plain_of_entry {name : String} {entries : List (Value × Value)} {v : Value}
    (hplain : ∀ entry ∈ entries, entry.2.Plain) (h : Value.entry? name entries = some v) :
    v.Plain := by
  induction entries with
  | nil => cases h
  | cons first rest ih =>
    obtain ⟨hfirst, hrest⟩ := List.forall_mem_cons.mp hplain
    rw [Value.entry?] at h
    split at h
    · cases h
      exact hfirst
    · exact ih hrest h

/-- Of plain values, texts alone pass for names, each for itself, and lists and tuples alone pass
for lists, each for its own items. -/
structure SchemaRules.AsDocumented (rules : SchemaRules) : Prop where
  name_iff {v : Value} {name : String} : v.Plain → (rules.name v = .ok name ↔ v = .text name)
  items?_iff {v : Value} {items : List Value} :
    v.Plain → (rules.items? v = some items ↔ v = .list items ∨ v = .tuple items)

theorem SchemaRules.asDocumented_lax : lax.AsDocumented where
  name_iff {v _} hv := by
    cases hv with
    | text s => simp [lax, Lax.name]
    | number hnumber =>
      cases v with
      | bytes content => cases hnumber
      | operator op => cases hnumber
      | _ => simp [lax, Lax.name]
    | _ => simp [lax, Lax.name]
  items?_iff {v _} hv := by
    cases hv with
    | number hnumber =>
      cases v with
      | set items => cases hnumber
      | _ => simp [lax, Lax.items?]
    | _ => simp [lax, Lax.items?]

namespace Definitions

open Definition

/-- The value of the entry describes a definition, but one out of order. -/
def Disordered (rules : SchemaRules) (entry : Value × Value) (f : Failure) : Prop :=
  ∃ d, Describes rules entry.2 d ∧ Disorder d f

/-- A dictionary with the type of the definition, and with a list or a tuple of values that pass for
its parameters, as many as its shape takes. -/
def Lists (rules : SchemaRules) (v : Value) (d : Definition) : Prop :=
  ∃ fields items, v = .dict fields ∧
    Value.entry? "type" fields = some (.text d.kind.label) ∧
    (Value.entry? "parameters" fields = some (.list items) ∨
      Value.entry? "parameters" fields = some (.tuple items)) ∧
    items.length = d.kind.parameterCount ∧
    List.Forall₂ (fun v x => rules.number v = .ok x) items d.parameters

/-- The entry has a text as its key, and its value describes a definition. -/
def WithinSchema (rules : SchemaRules) (entry : Value × Value) : Prop :=
  (∃ name, entry.1 = .text name) ∧ ∃ d, Describes rules entry.2 d

/-- What the schema has against an entry. -/
def violations (rules : SchemaRules) (entry : Value × Value) : List Violation :=
  (checkEntry rules entry.1 entry.2).violations

/-- Loading fails, with an error of a kind and a code. -/
structure Rejected (rules : SchemaRules) (document : Value) (f : Failure) (kind : ErrorKind)
    (code : ErrorCode) : Prop where
  result : (loadUnder rules document).result = .error (.failure f)
  kind_eq : f.kind = kind
  code_eq : f.code = code

/-- The definitions of entries one by one, under the names that are their keys. -/
def DefinedBy (rules : SchemaRules) (entries : List (Value × Value)) (ds : Definitions) : Prop :=
  List.Forall₂ (fun entry named => entry.1 = .text named.1 ∧ Describes rules entry.2 named.2)
    entries ds

variable {rules : SchemaRules} {key v : Value} {name : String} {d : Definition}
  {f : Failure} {entry : Value × Value} {entries : List (Value × Value)} {ds : Definitions}

/-! ### Single entries -/

theorem describes_iff_lists (hrules : rules.AsDocumented) (h : v.Plain) :
    Describes rules v d ↔ Lists rules v d := by
  have hgiven {fields : List (Value × Value)} {given : Value} (hv : v = .dict fields)
      (hentry : Value.entry? "parameters" fields = some given) : given.Plain := by
    subst hv
    cases h with
    | number hnumber => cases hnumber
    | dict _ hvalues _ => exact Value.plain_of_entry hvalues hentry
  constructor
  · rintro ⟨htype, hentry, hitems, hlength, hnumbers⟩
    refine ⟨_, _, rfl, htype, ?_, hlength, hnumbers⟩
    rcases (hrules.items?_iff (hgiven rfl hentry)).mp hitems with rfl | rfl
    · exact .inl hentry
    · exact .inr hentry
  · rintro ⟨fields, items, rfl, htype, hentry | hentry, hlength, hnumbers⟩
    · exact .intro htype hentry ((hrules.items?_iff (hgiven rfl hentry)).mpr (.inl rfl)) hlength
        hnumbers
    · exact .intro htype hentry ((hrules.items?_iff (hgiven rfl hentry)).mpr (.inr rfl)) hlength
        hnumbers

theorem checkKey_ne_refused (rules : SchemaRules) (key : Value) (f : Failure) :
    checkKey rules key ≠ .refused f := by
  intro h
  unfold checkKey at h
  split at h <;> cases h

theorem checkKey_eq_valid_iff (hrules : rules.AsDocumented) (h : key.Plain) :
    checkKey rules key = .valid name ↔ key = .text name := by
  rw [← hrules.name_iff h]
  unfold checkKey
  cases rules.name key <;> simp

theorem invalidOnlyIn_checkKey (rules : SchemaRules) (key : Value) :
    (checkKey rules key).InvalidOnlyIn [rules.step key] := by
  intro vs h
  unfold checkKey at h
  split at h
  · cases h
  · cases h
    refine ⟨List.cons_ne_nil _ _, fun w hw => ?_⟩
    rw [List.mem_singleton.mp hw]
    exact List.prefix_append _ _

theorem checkEntry_eq_refused_iff :
    checkEntry rules key v = .refused f ↔ Disordered rules (key, v) f := by
  rw [checkEntry, Checked.zipWith_eq_refused_iff (checkKey_ne_refused rules key),
    check_eq_refused_iff]
  rfl

theorem checkEntry_eq_valid_iff (hrules : rules.AsDocumented) (hkey : key.Plain) :
    checkEntry rules key v = .valid (name, d) ↔
      key = .text name ∧ Describes rules v d ∧ disorder? d.kind d.parameters = none := by
  rw [checkEntry, Checked.zipWith_eq_valid_iff]
  constructor
  · rintro ⟨x, y, hname, hd, hpair⟩
    cases hpair
    exact ⟨(checkKey_eq_valid_iff hrules hkey).mp hname, check_eq_valid_iff.mp hd⟩
  · rintro ⟨hname, hd⟩
    exact ⟨name, d, (checkKey_eq_valid_iff hrules hkey).mpr hname, check_eq_valid_iff.mpr hd, rfl⟩

theorem invalidOnlyIn_checkEntry (rules : SchemaRules) (key v : Value) :
    (checkEntry rules key v).InvalidOnlyIn [rules.step key] :=
  (invalidOnlyIn_checkKey rules key).zipWith (invalidOnlyIn_check rules (rules.step key) v)

theorem prefix_of_mem_violations {w : Violation} (h : w ∈ violations rules entry) :
    [rules.step entry.1] <+: w.location := by
  cases hcheck : checkEntry rules entry.1 entry.2 with
  | invalid vs =>
    rw [violations, hcheck] at h
    exact (invalidOnlyIn_checkEntry _ _ _ vs hcheck).2 w h
  | _ =>
    rw [violations, hcheck] at h
    cases h

theorem disorder?_eq_none_of_not_disordered (hordered : ∀ f, ¬ Disordered rules entry f)
    (hd : Describes rules entry.2 d) : disorder? d.kind d.parameters = none := by
  refine Option.eq_none_iff_forall_ne_some.mpr fun f hf => hordered f ⟨d, hd, ?_⟩
  exact (disorder?_eq_some_iff hd.length_eq).mp hf

theorem violations_eq_nil_iff (hrules : rules.AsDocumented) (hkey : entry.1.Plain)
    (hordered : ∀ f, ¬ Disordered rules entry f) :
    violations rules entry = [] ↔ WithinSchema rules entry := by
  constructor
  · intro hnil
    cases hcheck : checkEntry rules entry.1 entry.2 with
    | refused f => exact absurd (checkEntry_eq_refused_iff.mp hcheck) (hordered f)
    | invalid vs =>
      rw [violations, hcheck] at hnil
      exact absurd hnil (invalidOnlyIn_checkEntry _ _ _ vs hcheck).1
    | valid named =>
      obtain ⟨hname, hd, -⟩ := (checkEntry_eq_valid_iff hrules hkey).mp hcheck
      exact ⟨⟨_, hname⟩, _, hd⟩
  · rintro ⟨⟨name, hname⟩, d, hd⟩
    have hvalid : checkEntry rules entry.1 entry.2 = .valid (name, d) :=
      (checkEntry_eq_valid_iff hrules hkey).mpr
        ⟨hname, hd, disorder?_eq_none_of_not_disordered hordered hd⟩
    rw [violations, hvalid]
    rfl

/-! ### All entries -/

theorem checkEntries_cons (first : Value × Value) (rest : List (Value × Value)) :
    checkEntries rules (first :: rest) =
      .zipWith (· :: ·) (checkEntry rules first.1 first.2) (checkEntries rules rest) := rfl

/-- The first definition out of order decides. -/
theorem checkEntries_of_disordered {before after : List (Value × Value)}
    (hbefore : ∀ other ∈ before, ∀ g, ¬ Disordered rules other g) (h : Disordered rules entry f) :
    checkEntries rules (before ++ entry :: after) = .refused f := by
  induction before with
  | nil =>
    rw [List.nil_append, checkEntries_cons, checkEntry_eq_refused_iff.mpr h]
    rfl
  | cons first rest ih =>
    have hfirst (g : Failure) : checkEntry rules first.1 first.2 ≠ .refused g := fun hg =>
      hbefore first List.mem_cons_self g (checkEntry_eq_refused_iff.mp hg)
    rw [List.cons_append, checkEntries_cons, Checked.zipWith_eq_refused_iff hfirst]
    exact ih fun other hother => hbefore other (List.mem_cons_of_mem _ hother)

/-- Where no definition is out of order, the violations of all entries are collected. -/
theorem violations_checkEntries (h : ∀ entry ∈ entries, ∀ f, ¬ Disordered rules entry f) :
    (∀ f, checkEntries rules entries ≠ .refused f) ∧
      (checkEntries rules entries).violations = entries.flatMap (violations rules) := by
  induction entries with
  | nil => simp [checkEntries, Checked.violations]
  | cons first rest ih =>
    obtain ⟨hrest, hviolations⟩ := ih fun entry hentry => h entry (List.mem_cons_of_mem _ hentry)
    have hfirst (f : Failure) : checkEntry rules first.1 first.2 ≠ .refused f := fun hf =>
      h first List.mem_cons_self f (checkEntry_eq_refused_iff.mp hf)
    rw [checkEntries_cons, List.flatMap_cons, ← hviolations]
    refine ⟨fun f hf => ?_, Checked.violations_zipWith hfirst hrest⟩
    exact hrest f ((Checked.zipWith_eq_refused_iff hfirst).mp hf)

theorem checkEntries_eq_valid_iff :
    checkEntries rules entries = .valid ds ↔
      List.Forall₂ (fun entry named => checkEntry rules entry.1 entry.2 = .valid named)
        entries ds := by
  induction entries generalizing ds with
  | nil => simp [checkEntries, eq_comm]
  | cons first rest ih =>
    rw [List.forall₂_cons_left_iff, checkEntries_cons, Checked.zipWith_eq_valid_iff]
    constructor
    · rintro ⟨named, others, hnamed, hothers, rfl⟩
      exact ⟨named, others, hnamed, ih.mp hothers, rfl⟩
    · rintro ⟨named, others, hnamed, hothers, rfl⟩
      exact ⟨named, others, hnamed, ih.mpr hothers, rfl⟩

/-! ### Documents -/

theorem distinct_eq_self (h : ds.names.Nodup) : distinct ds = ds := by
  have hfold (acc rest : Definitions) (hnodup : (acc ++ rest).names.Nodup) :
      rest.foldl (fun acc entry => insert entry acc) acc = acc ++ rest := by
    induction rest generalizing acc with
    | nil => exact (List.append_nil acc).symm
    | cons entry rest ih =>
      have hsplit : acc ++ entry :: rest = (acc ++ [entry]) ++ rest := by simp
      have hnew : entry.1 ∉ acc.map Prod.fst := by
        rw [names, List.map_append] at hnodup
        exact fun hmem => (List.nodup_append.mp hnodup).2.2 _ hmem _ List.mem_cons_self rfl
      rw [List.foldl_cons, insert_eq_upsert, upsert_of_not_mem hnew, hsplit]
      exact ih _ (hsplit ▸ hnodup)
  exact hfold [] ds h

theorem result_loadUnder (rules : SchemaRules) (document : Value) :
    (loadUnder rules document).result = match check rules document with
      | .refused f => .error (.failure f)
      | .invalid vs => .error (.failure (.invalidDefinitions vs))
      | .valid ds => .ok ds := by
  unfold loadUnder
  cases check rules document <;> rfl

theorem result_load (document : Value) :
    (load document).result = match check .lax document with
      | .refused f => .error (.failure f)
      | .invalid vs => .error (.failure (.invalidDefinitions vs))
      | .valid ds => .ok ds :=
  result_loadUnder .lax document

/-- Entries that are all within the schema and in order are taken as they stand. -/
theorem exists_checkEntries_valid (hrules : rules.AsDocumented)
    (hkeys : ∀ entry ∈ entries, entry.1.Plain)
    (hordered : ∀ entry ∈ entries, ∀ f, ¬ Disordered rules entry f)
    (h : ∀ entry ∈ entries, WithinSchema rules entry) :
    ∃ ds, checkEntries rules entries = .valid ds ∧ DefinedBy rules entries ds := by
  induction entries with
  | nil => exact ⟨[], rfl, .nil⟩
  | cons first rest ih =>
    obtain ⟨ds, hds, hall⟩ := ih (fun entry he => hkeys entry (List.mem_cons_of_mem _ he))
      (fun entry he => hordered entry (List.mem_cons_of_mem _ he))
      (fun entry he => h entry (List.mem_cons_of_mem _ he))
    obtain ⟨⟨name, hname⟩, d, hd⟩ := h first List.mem_cons_self
    have hvalid : checkEntry rules first.1 first.2 = .valid (name, d) :=
      (checkEntry_eq_valid_iff hrules (hkeys first List.mem_cons_self)).mpr ⟨hname, hd,
        disorder?_eq_none_of_not_disordered (hordered first List.mem_cons_self) hd⟩
    refine ⟨(name, d) :: ds, ?_, .cons ⟨hname, hd⟩ hall⟩
    rw [checkEntries_cons, hvalid, hds]
    rfl

theorem nodup_names
    (hkeys : entries.Pairwise fun entry other => Value.sameKey entry.1 other.1 = false)
    (h : DefinedBy rules entries ds) : ds.names.Nodup := by
  have hnames : entries.map Prod.fst = ds.names.map Value.text := by
    induction h with
    | nil => rfl
    | cons hfirst hrest ih =>
      rw [List.map_cons, hfirst.1, ih (List.pairwise_cons.mp hkeys).2]
      rfl
  have hpairwise : (ds.names.map Value.text).Pairwise fun k l => Value.sameKey k l = false := by
    rw [← hnames]
    exact List.pairwise_map.mpr hkeys
  refine (List.pairwise_map.mp hpairwise).imp fun {s t} hne heq => ?_
  rw [heq] at hne
  simp [Value.sameKey] at hne

theorem rejected_of_not_dict {document : Value} (h : ∀ entries, document ≠ .dict entries) :
    Rejected rules document (.invalidDefinitions [⟨.notDict, []⟩]) .invalidConfiguration
      .configValidationFailed := by
  refine ⟨?_, rfl, rfl⟩
  rw [result_loadUnder]
  cases document with
  | dict entries => exact absurd rfl (h entries)
  | _ => rfl

theorem rejected_of_disordered (before after : List (Value × Value))
    (hbefore : ∀ other ∈ before, ∀ g, ¬ Disordered rules other g) (h : Disordered rules entry f) :
    Rejected rules (.dict (before ++ entry :: after)) f .configuration .mfInvalidParameterOrder ∨
      Rejected rules (.dict (before ++ entry :: after)) f .configuration .mfInvalidSigma := by
  have hresult :
      (loadUnder rules (.dict (before ++ entry :: after))).result = .error (.failure f) := by
    rw [result_loadUnder, check, checkEntries_of_disordered hbefore h]
    rfl
  obtain ⟨d, -, hdisorder⟩ := h
  cases hdisorder with
  | ramps => exact .inl ⟨hresult, rfl, rfl⟩
  | width => exact .inr ⟨hresult, rfl, rfl⟩

variable (entries) in
theorem rejected_of_outside (hrules : rules.AsDocumented) (hkeys : ∀ entry ∈ entries, entry.1.Plain)
    (hordered : ∀ entry ∈ entries, ∀ f, ¬ Disordered rules entry f)
    (h : ∃ entry ∈ entries, ¬ WithinSchema rules entry) :
    Rejected rules (.dict entries) (.invalidDefinitions (entries.flatMap (violations rules)))
      .invalidConfiguration .configValidationFailed := by
  obtain ⟨hnot, hviolations⟩ := violations_checkEntries hordered
  obtain ⟨entry, hentry, houtside⟩ := h
  have hsome : entries.flatMap (violations rules) ≠ [] := by
    intro hnil
    have hentryNil := List.flatMap_eq_nil_iff.mp hnil entry hentry
    exact houtside ((violations_eq_nil_iff hrules (hkeys entry hentry)
      (hordered entry hentry)).mp hentryNil)
  rw [← hviolations] at hsome ⊢
  refine ⟨?_, rfl, rfl⟩
  rw [result_loadUnder, check]
  cases hcheck : checkEntries rules entries with
  | refused f => exact absurd hcheck (hnot f)
  | invalid vs => rfl
  | valid ds =>
    rw [hcheck] at hsome
    exact absurd rfl hsome

theorem rejected_of_empty :
    Rejected rules (.dict []) .emptyDefinitions .configuration .configEmptyDefinitions :=
  ⟨result_loadUnder _ _, rfl, rfl⟩

theorem load_of_within (hrules : rules.AsDocumented) (hkeys : ∀ entry ∈ entries, entry.1.Plain)
    (hdistinct : entries.Pairwise fun entry other => Value.sameKey entry.1 other.1 = false)
    (hordered : ∀ entry ∈ entries, ∀ f, ¬ Disordered rules entry f)
    (h : ∀ entry ∈ entries, WithinSchema rules entry) (hsome : entries ≠ []) :
    ∃ ds, (loadUnder rules (.dict entries)).result = .ok ds ∧ DefinedBy rules entries ds := by
  obtain ⟨ds, hvalid, hall⟩ := exists_checkEntries_valid hrules hkeys hordered h
  refine ⟨ds, ?_, hall⟩
  rw [result_loadUnder, check, hvalid]
  cases ds with
  | nil =>
    cases hall
    exact absurd rfl hsome
  | cons first rest =>
    exact congrArg Except.ok (distinct_eq_self (nodup_names hdistinct hall))

/-- **The outcome of loading.** What is no dictionary is rejected. In a dictionary, definitions are
described by the dictionaries that list their parameters, and the first definition out of order
decides, whatever the schema has against other entries. Where there is none, all violations are
listed, entry by entry; those of an entry are inside of it, are what is listed of the entry alone,
and there are none exactly if the entry is within the schema. Where all entries are, an empty
dictionary is rejected, and any other one gives its definitions in order. -/
theorem load_outcome (hrules : rules.AsDocumented) {document : Value} (h : document.Plain) :
    ((∀ entries, document ≠ .dict entries) →
      Rejected rules document (.invalidDefinitions [⟨.notDict, []⟩]) .invalidConfiguration
        .configValidationFailed) ∧
    ∀ entries, document = .dict entries →
      (∀ entry ∈ entries, ∀ d, Describes rules entry.2 d ↔ Lists rules entry.2 d) ∧
      (∀ before entry after f, entries = before ++ entry :: after →
        (∀ other ∈ before, ∀ g, ¬ Disordered rules other g) → Disordered rules entry f →
          Rejected rules document f .configuration .mfInvalidParameterOrder ∨
            Rejected rules document f .configuration .mfInvalidSigma) ∧
      ((∀ entry ∈ entries, ∀ f, ¬ Disordered rules entry f) →
        ((∃ entry ∈ entries, ¬ WithinSchema rules entry) →
          Rejected rules document (.invalidDefinitions (entries.flatMap (violations rules)))
            .invalidConfiguration .configValidationFailed ∧
          ∀ entry ∈ entries, (violations rules entry = [] ↔ WithinSchema rules entry) ∧
            (∀ w ∈ violations rules entry, [rules.step entry.1] <+: w.location) ∧
            (¬ WithinSchema rules entry →
              Rejected rules (.dict [entry]) (.invalidDefinitions (violations rules entry))
                .invalidConfiguration .configValidationFailed)) ∧
        ((∀ entry ∈ entries, WithinSchema rules entry) →
          (entries = [] →
            Rejected rules document .emptyDefinitions .configuration .configEmptyDefinitions) ∧
          (entries ≠ [] → ∃ ds, (loadUnder rules document).result = .ok ds ∧
            DefinedBy rules entries ds))) := by
  refine ⟨rejected_of_not_dict, ?_⟩
  rintro entries rfl
  obtain ⟨hkeys, hvalues, hdistinct⟩ : (∀ entry ∈ entries, entry.1.Plain) ∧
      (∀ entry ∈ entries, entry.2.Plain) ∧
      entries.Pairwise fun entry other => Value.sameKey entry.1 other.1 = false := by
    cases h with
    | number hnumber => cases hnumber
    | dict hkeys hvalues hdistinct => exact ⟨hkeys, hvalues, hdistinct⟩
  refine ⟨fun entry hentry d => describes_iff_lists hrules (hvalues entry hentry), ?_,
    fun hordered => ⟨fun houtside => ⟨?_, ?_⟩, fun hwithin => ⟨?_, ?_⟩⟩⟩
  · rintro before entry after f rfl hbefore hentry
    exact rejected_of_disordered before after hbefore hentry
  · exact rejected_of_outside entries hrules hkeys hordered houtside
  · intro entry hentry
    refine ⟨violations_eq_nil_iff hrules (hkeys entry hentry) (hordered entry hentry),
      fun w => prefix_of_mem_violations, fun hout => ?_⟩
    have halone := rejected_of_outside [entry] hrules
      (List.forall_mem_singleton.mpr (hkeys entry hentry))
      (List.forall_mem_singleton.mpr (hordered entry hentry)) ⟨entry, List.mem_cons_self, hout⟩
    rwa [List.flatMap_singleton] at halone
  · rintro rfl
    exact rejected_of_empty
  · exact load_of_within hrules hkeys hdistinct hordered hwithin

/-- A key that is no text and a value that is no dictionary lose against a triangle that does not
rise; without the triangle they are listed. -/
theorem load_outcome_mixed :
    let triangle : Value := .dict [(.text "type", .text "triangular"),
      (.text "parameters", .list [.float 1, .float 0, .float 1])]
    let document : Value :=
      .dict [(.int 3, .absent), (.text "cold", triangle), (.text "hot", .int 1)]
    let rest : Value := .dict [(.int 3, .absent), (.text "hot", .int 1)]
    document.Plain ∧ rest.Plain ∧
      Rejected .lax document (.parameterOrder .triangular [1, 0, 1]) .configuration
        .mfInvalidParameterOrder ∧
      Rejected .lax rest (.invalidDefinitions [⟨.keyNotText, [.index 3, .key "[key]"]⟩,
        ⟨.definitionNotDict, [.index 3]⟩, ⟨.definitionNotDict, [.key "hot"]⟩])
        .invalidConfiguration .configValidationFailed := by
  intro triangle document rest
  have hnumber (x : Binary64) : (Value.float x).Plain := .number rfl
  have hfields : ∀ entry ∈ [(Value.text "type", Value.text "triangular"),
      (.text "parameters", .list [.float 1, .float 0, .float 1])],
      entry.1.Plain ∧ entry.2.Plain := by
    refine List.forall_mem_cons.mpr
      ⟨⟨.text _, .text _⟩, List.forall_mem_singleton.mpr ⟨.text _, ?_⟩⟩
    refine .list (List.forall_mem_cons.mpr ⟨hnumber 1, ?_⟩)
    exact List.forall_mem_cons.mpr ⟨hnumber 0, List.forall_mem_singleton.mpr (hnumber 1)⟩
  have htriangle : triangle.Plain :=
    .dict (fun entry he => (hfields entry he).1) (fun entry he => (hfields entry he).2)
      (by decide +kernel)
  have hthree : (Value.int 3).Plain := .number rfl
  have hone : (Value.int 1).Plain := .number rfl
  have hdocument : document.Plain := by
    refine .dict ?_ ?_ (by decide +kernel)
    · exact List.forall_mem_cons.mpr ⟨hthree, List.forall_mem_cons.mpr
        ⟨.text _, List.forall_mem_singleton.mpr (.text _)⟩⟩
    · exact List.forall_mem_cons.mpr ⟨.absent, List.forall_mem_cons.mpr
        ⟨htriangle, List.forall_mem_singleton.mpr hone⟩⟩
  have hrest : rest.Plain := by
    refine .dict ?_ ?_ (by decide +kernel)
    · exact List.forall_mem_cons.mpr ⟨hthree, List.forall_mem_singleton.mpr (.text _)⟩
    · exact List.forall_mem_cons.mpr ⟨.absent, List.forall_mem_singleton.mpr hone⟩
  have hdisordered :
      Disordered .lax (.text "cold", triangle) (.parameterOrder .triangular [1, 0, 1]) := by
    refine ⟨⟨.triangular, [1, 0, 1]⟩, .intro rfl rfl rfl rfl ?_, .ramps ShapeKind.noConfusion ?_⟩
    · exact .cons rfl (.cons rfl (.cons rfl .nil))
    · decide +kernel
  have hloose : ∀ other ∈ [(Value.int 3, Value.absent), (.text "hot", .int 1)],
      ∀ g, ¬ Disordered .lax other g := by
    refine List.forall_mem_cons.mpr ⟨?_, List.forall_mem_singleton.mpr ?_⟩
    · rintro g ⟨d, hd, -⟩
      cases hd
    · rintro g ⟨d, hd, -⟩
      cases hd
  refine ⟨hdocument, hrest, ?_, ?_⟩
  · have hdecided := (load_outcome SchemaRules.asDocumented_lax hdocument).2 _ rfl
    have hfirst := hdecided.2.1 [(.int 3, .absent)] _ [(.text "hot", .int 1)] _ rfl
      (List.forall_mem_singleton.mpr (hloose _ List.mem_cons_self)) hdisordered
    refine hfirst.resolve_right fun hsigma => ?_
    cases hsigma.code_eq
  · have houtside : ¬ WithinSchema .lax (Value.int 3, Value.absent) := by
      rintro ⟨⟨name, hname⟩, -⟩
      cases hname
    have hcollected := ((load_outcome SchemaRules.asDocumented_lax hrest).2 _ rfl).2.2 hloose
    exact (hcollected.1 ⟨_, List.mem_cons_self, houtside⟩).1

end Definitions

end FuzzyAlgebra

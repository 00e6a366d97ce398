import FuzzyAlgebra.Proofs.Logging.CallLog
import Mathlib.Logic.ExistsUnique

/-!
# Logged calls inside logged calls

A function that is logged can call others that are, look at how these calls ended, and go on or end
itself. Without the logs such a run has an ending and a history: the calls that were made, each with
the calls made inside it. With the logs the ending is the same, and the records are the history
written out: each call tells that it was entered, then what was told inside it, and then how it
ended. A history written out is a row of brackets, and in such a row every opening one has exactly
one partner, which is found without knowing the history.
-/

namespace FuzzyAlgebra

theorem Signature.exists_matched?_of_fits {s : Signature} {a : Arguments}
    (h : s.problem? a = none) : ∃ matching, s.matched? a = some matching := by
  obtain ⟨hnames, hpositions, -⟩ :
      s.nameProblem? a = none ∧ s.positionProblem? a = none ∧ s.missingProblem? a = none := by
    simpa [problem?] using h
  exact ⟨_, by rw [matched?, hnames, hpositions]; rfl⟩

theorem Value.allWritable_iff {vs : List Value} :
    allWritable vs = true ↔ ∀ v ∈ vs, v.isWritable := by
  induction vs with
  | nil => simp [allWritable]
  | cons v vs ih => simp [allWritable, ih]

theorem Value.allEntriesWritable_iff {entries : List (Value × Value)} :
    allEntriesWritable entries = true ↔
      ∀ entry ∈ entries, entry.1.isWritable ∧ entry.2.isWritable := by
  induction entries with
  | nil => simp [allEntriesWritable]
  | cons entry rest ih => simp [allEntriesWritable, ih]

/-- What a signature makes of arguments consists of these arguments. -/
theorem Signature.isWritable_of_argument? {s : Signature} {a : Arguments} {place : Nat}
    {p : Parameter} {v : Value} (ha : ∀ v ∈ a.positions ++ a.names.map Prod.snd, v.isWritable)
    (h : s.argument? a place p = some v) : v.isWritable := by
  have hposition {v : Value} (hv : v ∈ a.positions) : v.isWritable :=
    ha v (List.mem_append_left _ hv)
  have hname {entry : String × Value} (hentry : entry ∈ a.names) : entry.2.isWritable :=
    ha _ (List.mem_append_right _ (List.mem_map_of_mem hentry))
  have hbyName {p : String × Value → Bool} (h : (a.names.find? p).map Prod.snd = some v) :
      v.isWritable := by
    obtain ⟨entry, hfind, rfl⟩ := Option.map_eq_some_iff.1 h
    exact hname (List.mem_of_find?_eq_some hfind)
  unfold argument? at h
  split at h
  case h_1 =>
    cases hplace : a.positions[place]? with
    | some w =>
      rw [hplace] at h
      cases h
      exact hposition (List.mem_of_getElem? hplace)
    | none =>
      rw [hplace] at h
      exact hbyName h
  case h_2 => exact hbyName h
  case h_3 =>
    split at h
    · cases h
    · cases h
      exact Value.allWritable_iff.2 fun v hv => hposition (List.mem_of_mem_drop hv)
  case h_4 =>
    split at h
    · cases h
    · cases h
      refine Value.allEntriesWritable_iff.2 fun entry hentry => ?_
      obtain ⟨given, hgiven, rfl⟩ := List.mem_map.1 hentry
      exact ⟨rfl, hname (List.mem_filter.1 hgiven).1⟩

theorem Signature.isWritable_of_matched? {s : Signature} {a : Arguments}
    {matching : List (String × Value)}
    (ha : ∀ v ∈ a.positions ++ a.names.map Prod.snd, v.isWritable)
    (h : s.matched? a = some matching) : ∀ entry ∈ matching, entry.2.isWritable := by
  unfold matched? at h
  split at h
  · cases h
  · cases h
    intro entry hentry
    obtain ⟨⟨p, place⟩, -, hp⟩ := List.mem_filterMap.1 hentry
    obtain ⟨v, hv, rfl⟩ := Option.map_eq_some_iff.1 hp
    exact isWritable_of_argument? ha hv

theorem CallLog.shownArguments_of_isWritable {matching : List (String × Value)}
    (h : ∀ entry ∈ matching, entry.2.isWritable) :
    shownArguments matching =
      .ok ((matching.filter fun (name, _) => name ≠ "self").map fun (name, v) =>
        (name, shown.written v)) := by
  have hall : ∀ entry ∈ matching.filter fun (name, _) => name ≠ "self", entry.2.isWritable :=
    fun entry hentry => h entry (List.mem_filter.1 hentry).1
  unfold shownArguments
  generalize matching.filter (fun (name, _) => name ≠ "self") = entries at hall ⊢
  induction entries with
  | nil => rfl
  | cons entry rest ih =>
    obtain ⟨name, v⟩ := entry
    obtain ⟨hentry, hrest⟩ := List.forall_mem_cons.1 hall
    simp only [List.mapM_cons, ih hrest, shown_of_isWritable hentry]
    rfl

/-- A call of a logged function, with arguments that the function takes and that can be written. -/
structure LoggedCall where
  log : CallLog
  channel : String
  signature : Signature
  arguments : Arguments
  /-- How long the call takes, in seconds. -/
  time : Binary64
  fits : signature.problem? arguments = none
  writable : ∀ v ∈ arguments.positions ++ arguments.names.map Prod.snd, v.isWritable

namespace LoggedCall

/-- The arguments as the log shows them, if it does. -/
def shownArguments (c : LoggedCall) : Option (List (String × String)) :=
  if c.log.showsArguments && !c.arguments.isEmpty then
    (c.signature.matched? c.arguments).map fun matching =>
      (matching.filter fun (name, _) => name ≠ "self").map fun (name, v) =>
        (name, CallLog.shown.written v)
  else none

/-- What is told when the function is entered. -/
def entered (c : LoggedCall) : Level × String × Option String :=
  (c.log.entryLevel, c.channel,
    some ("Entering " ++ c.signature.qualifiedName ++ CallLog.argumentsText c.shownArguments))

/-- Runs a body as the body of the logged function. -/
def perform {σ : Type} (c : LoggedCall) (body : Action σ Value) : Action σ Value :=
  c.log.call c.channel c.signature c.arguments c.time body

theorem perform_eq {σ : Type} (c : LoggedCall) (body : Action σ Value) :
    c.perform body = c.log.around c.channel c.signature.qualifiedName c.shownArguments c.time
      CallLog.shown body := by
  obtain ⟨matching, hmatching⟩ := Signature.exists_matched?_of_fits c.fits
  have hshown := CallLog.shownArguments_of_isWritable
    (Signature.isWritable_of_matched? c.writable hmatching)
  rw [perform, CallLog.call, c.fits, hmatching, shownArguments, hmatching]
  split
  · simp only [hshown]
    rfl
  · rfl

end LoggedCall

/-- One end of a call in a log. -/
inductive CallLine where
  | entry (c : LoggedCall)
  | exit (c : LoggedCall) (outcome : Except Fault Value)

namespace CallLine

/-- The line as it is told. How a call ended may be something that cannot be written. -/
def told : CallLine → Except Mishap (Level × String × Option String)
  | entry c => .ok c.entered
  | exit c (.ok v) => do
    let text ← if c.log.showsResult then
        (CallLog.shown v).map fun text => " with result: " ++ CallLog.clipped text
      else .ok ""
    pure (c.log.exitLevel, c.channel,
      some ("Exiting " ++ c.signature.qualifiedName ++ " after " ++ CallLog.seconds c.time ++ text))
  | exit c (.error e) => do
    let text ← e.text
    pure (c.log.faultLevel, c.channel,
      some ("Exception in " ++ c.signature.qualifiedName ++ " after " ++ CallLog.seconds c.time ++
        ": " ++ e.name ++ ": " ++ text))

/-- Whether the line can be written. Of a call that returned only a result that is shown matters. -/
def isWritable : CallLine → Bool
  | entry _ => true
  | exit c (.ok v) => !c.log.showsResult || v.isWritable
  | exit _ (.error e) => e.text.isOk

end CallLine

/-- The calls that were made one after the other, each with the calls made inside it. -/
inductive CallHistory where
  | none
  | made (c : LoggedCall) (outcome : Except Fault Value) (inside later : CallHistory)

namespace CallHistory

/-- The lines of each call, with those of the calls inside it strictly between them. -/
def lines : CallHistory → List CallLine
  | none => []
  | made c outcome inside later => .entry c :: inside.lines ++ .exit c outcome :: later.lines

end CallHistory

/-- How a run ended, and the calls that were made on the way. -/
structure CallRun (σ : Type) where
  outcome : Except Fault Value
  state : σ
  calls : CallHistory

/-- A body: it ends, does work of its own, or calls a logged function, and goes on with what came of
that. A fault of a call is passed on or caught by what comes next. -/
inductive CallTree (σ : Type) where
  | finish (outcome : Except Fault Value)
  | work (act : σ → Except Fault Value × σ) (next : Except Fault Value → CallTree σ)
  | call (c : LoggedCall) (body : CallTree σ) (next : Except Fault Value → CallTree σ)

namespace CallTree

variable {σ : Type}

/-- The run of the functions as they are, without their logs. -/
def run : CallTree σ → σ → CallRun σ
  | finish outcome, s => ⟨outcome, s, .none⟩
  | work act next, s => (next (act s).1).run (act s).2
  | call c body next, s =>
    let inside := body.run s
    let later := (next inside.outcome).run inside.state
    ⟨later.outcome, later.state, .made c inside.outcome inside.calls later.calls⟩

/-- The run of the functions with their logs. -/
def logged : CallTree σ → Action σ Value
  | finish outcome => Action.ofTraced (.ofExcept outcome)
  | work act next => fun s => (next (act s).1).logged (act s).2
  | call c body next => do
    let outcome ← (c.perform body.logged).attempt
    (next outcome).logged

end CallTree

/-! ### One call -/

namespace CallLine

theorem told_exit (c : LoggedCall) (outcome : Except Fault Value) :
    (exit c outcome).told =
      (c.log.ending c.signature.qualifiedName c.time CallLog.shown outcome).map
        fun (level, message) => (level, c.channel, some message) := by
  cases outcome with
  | ok v =>
    rw [told, CallLog.ending, CallLog.resultText]
    cases c.log.showsResult with
    | false => rfl
    | true => cases CallLog.shown v <;> rfl
  | error e =>
    rw [told, CallLog.ending]
    cases e.text <;> rfl

theorem exists_told {line : CallLine} (h : line.isWritable) : ∃ r, line.told = .ok r := by
  match line with
  | entry c => exact ⟨_, rfl⟩
  | exit c (.ok v) =>
    rw [isWritable, Bool.or_eq_true, Bool.not_eq_true'] at h
    rw [told]
    obtain hshows | hv := h
    · rw [hshows]
      exact ⟨_, rfl⟩
    · rw [CallLog.shown_of_isWritable hv]
      split <;> exact ⟨_, rfl⟩
  | exit c (.error e) =>
    rw [told]
    rw [isWritable] at h
    cases htext : e.text with
    | ok text => exact ⟨_, rfl⟩
    | error m =>
      rw [htext] at h
      cases h

end CallLine

namespace LoggedCall

variable {σ : Type} {c : LoggedCall} {body : Action σ Value} {s : σ}

/-- A call whose end can be written ends like its body, and tells the two lines around it. -/
theorem perform_of_told {line : Level × String × Option String}
    (h : (CallLine.exit c (body s).1.result).told = .ok line) :
    (c.perform body s).1.result = (body s).1.result ∧ (c.perform body s).2 = (body s).2 ∧
      (c.perform body s).1.told = c.entered :: (body s).1.told ++ [line] := by
  obtain ⟨hresult, hstate, htold⟩ := c.log.around_eq c.channel c.signature.qualifiedName
    c.shownArguments c.time CallLog.shown body s
  rw [CallLine.told_exit] at h
  cases hending : c.log.ending c.signature.qualifiedName c.time CallLog.shown (body s).1.result with
  | error m =>
    rw [hending] at h
    cases h
  | ok message =>
    rw [hending] at h
    cases h
    obtain ⟨hleave, hleaveTold⟩ := CallLog.leave_of_ok c.channel hending
    rw [perform_eq, hresult, hstate, htold, hleave, hleaveTold]
    exact ⟨rfl, rfl, rfl⟩

/-- A call whose end cannot be written ends with that mishap, and tells that it was entered only. -/
theorem perform_of_untold {m : Mishap}
    (h : (CallLine.exit c (body s).1.result).told = .error m) :
    (c.perform body s).1.result = .error (.mishap m) ∧ (c.perform body s).2 = (body s).2 ∧
      (c.perform body s).1.told = c.entered :: (body s).1.told := by
  obtain ⟨hresult, hstate, htold⟩ := c.log.around_eq c.channel c.signature.qualifiedName
    c.shownArguments c.time CallLog.shown body s
  rw [CallLine.told_exit] at h
  cases hending : c.log.ending c.signature.qualifiedName c.time CallLog.shown (body s).1.result with
  | error m' =>
    rw [hending] at h
    cases h
    obtain ⟨hleave, hleaveTold⟩ := CallLog.leave_of_error c.channel hending
    rw [perform_eq, hresult, hstate, htold, hleave, hleaveTold, List.append_nil]
    exact ⟨rfl, rfl, rfl⟩
  | ok message =>
    rw [hending] at h
    cases h

end LoggedCall

/-! ### Trees of calls -/

namespace CallTree

variable {σ : Type}

/-- The logs change nothing, and tell the history, as long as it can be written. -/
theorem logged_eq (t : CallTree σ) (s : σ)
    (h : ∀ line ∈ (t.run s).calls.lines, line.isWritable) :
    (t.logged s).1.result = (t.run s).outcome ∧ (t.logged s).2 = (t.run s).state ∧
      (t.logged s).1.told.map .ok = (t.run s).calls.lines.map CallLine.told := by
  induction t generalizing s with
  | finish outcome => exact ⟨rfl, rfl, rfl⟩
  | work act next ih => exact ih (act s).1 (act s).2 h
  | call c body next ihbody ihnext =>
    rw [run, CallHistory.lines] at h
    obtain ⟨hbody, hrest⟩ := List.forall_mem_append.1 (List.forall_mem_cons.1 h).2
    obtain ⟨hexit, hlater⟩ := List.forall_mem_cons.1 hrest
    obtain ⟨hresult, hstate, htold⟩ := ihbody s hbody
    obtain ⟨line, hline⟩ := CallLine.exists_told hexit
    obtain ⟨hresult', hstate', htold'⟩ :=
      LoggedCall.perform_of_told (c := c) (hresult ▸ hline)
    have hattempt : ((c.perform body.logged).attempt s).1.result =
        .ok (body.run s).outcome := congrArg Except.ok (hresult'.trans hresult)
    have hafter : ((c.perform body.logged).attempt s).2 = (body.run s).state :=
      hstate'.trans hstate
    have hinside : ((c.perform body.logged).attempt s).1.told =
        c.entered :: (body.logged s).1.told ++ [line] := htold'
    obtain ⟨hnext, hnextState, hnextTold⟩ :=
      ihnext (body.run s).outcome (body.run s).state hlater
    rw [logged, Action.result_bind_of_ok hattempt, Action.state_bind_of_ok hattempt,
      Action.told_bind_of_ok hattempt, hafter, hinside]
    refine ⟨hnext, hnextState, ?_⟩
    have hentry : (CallLine.entry c).told = .ok c.entered := rfl
    rw [run, CallHistory.lines]
    simp only [List.map_append, List.map_cons, htold, hnextTold, hline, hentry,
      List.append_assoc, List.cons_append, List.nil_append]

end CallTree

/-! ### Rows of brackets -/

namespace CallLine

/-- The lines of calls that are one inside the other, or one after the other. -/
inductive WellNested : List CallLine → Prop
  | nil : WellNested []
  | call (c : LoggedCall) (outcome : Except Fault Value) {inside later : List CallLine} :
      WellNested inside → WellNested later →
        WellNested (.entry c :: inside ++ .exit c outcome :: later)

/-- The line at a place is an entry, and one at a later place is an exit from the same call; what is
between the two is well nested. -/
def Partners (lines : List CallLine) (i j : Nat) : Prop :=
  i < j ∧ ∃ c outcome, lines[i]? = some (.entry c) ∧ lines[j]? = some (.exit c outcome) ∧
    WellNested ((lines.take j).drop (i + 1))

variable {lines before after inside inside' later later' : List CallLine} {c c' : LoggedCall}
  {outcome outcome' : Except Fault Value} {i j j' : Nat}

/-- A row that begins well nested and goes on with an exit can be read in one way only. -/
theorem WellNested.inside_unique (h : WellNested inside) (h' : WellNested inside')
    (heq : inside ++ .exit c outcome :: later = inside' ++ .exit c' outcome' :: later') :
    inside = inside' ∧ later = later' := by
  induction h generalizing inside' c outcome c' outcome' later later' with
  | nil =>
    cases h' with
    | nil => exact ⟨rfl, (List.cons.inj heq).2⟩
    | call => cases (List.cons.inj heq).1
  | call c₁ outcome₁ hinside hlater ihinside ihlater =>
    cases h' with
    | nil => cases (List.cons.inj heq).1
    | call c₂ outcome₂ hinside' hlater' =>
      simp only [List.cons_append, List.append_assoc, List.cons.injEq, entry.injEq] at heq
      obtain ⟨rfl, hrest⟩ := heq
      obtain ⟨rfl, htail⟩ := ihinside hinside' hrest
      obtain ⟨rfl, rfl⟩ := ihlater hlater' htail
      have hexit := List.append_cancel_left hrest
      exact ⟨by rw [(List.cons.inj hexit).1], rfl⟩

/-- What follows an entry is well nested up to an exit from the same call. -/
theorem WellNested.exists_exit (h : WellNested lines) (heq : lines = before ++ .entry c :: after) :
    ∃ inside outcome later,
      WellNested inside ∧ after = inside ++ .exit c outcome :: later := by
  induction h generalizing before c after with
  | nil => simp at heq
  | @call c₁ outcome₁ inside₁ later₁ hinside hlater ihinside ihlater =>
    cases before with
    | nil =>
      obtain ⟨hentry, rfl⟩ := List.cons.inj heq
      obtain rfl := entry.inj hentry
      exact ⟨inside₁, outcome₁, later₁, hinside, rfl⟩
    | cons line before =>
      obtain ⟨-, hrest⟩ := List.cons.inj heq
      -- The entry is after the lines of the first call, or among them.
      obtain ⟨between, rfl, htail⟩ | ⟨between, hbetween, htail⟩ :=
        List.append_eq_append_iff.1 hrest
      · cases between with
        | nil => cases (List.cons.inj htail).1
        | cons line' between => exact ihlater (List.cons.inj htail).2
      · cases between with
        | nil => cases (List.cons.inj htail).1
        | cons line' between =>
          obtain ⟨hline, rfl⟩ := List.cons.inj htail
          obtain rfl := hline
          obtain ⟨inside, outcome, later, hnested, rfl⟩ := ihinside hbetween
          exact ⟨inside, outcome, later ++ .exit c₁ outcome₁ :: later₁, hnested, by simp⟩

theorem partners_iff :
    Partners (before ++ .entry c :: after) before.length j ↔
      ∃ inside outcome later, WellNested inside ∧ after = inside ++ .exit c outcome :: later ∧
        j = before.length + 1 + inside.length := by
  have hplace (k : Nat) :
      (before ++ .entry c :: after)[before.length + 1 + k]? = after[k]? := by
    rw [List.getElem?_append_right (by omega),
      show before.length + 1 + k - before.length = k + 1 by omega, List.getElem?_cons_succ]
  have hbetween (k : Nat) :
      ((before ++ .entry c :: after).take (before.length + 1 + k)).drop (before.length + 1) =
        after.take k := by
    simp [List.drop_take]
  constructor
  · rintro ⟨hlt, c', outcome, hentry, hexit, hnested⟩
    obtain rfl : c = c' := by simpa using hentry
    obtain ⟨k, rfl⟩ := Nat.exists_eq_add_of_lt hlt
    rw [Nat.add_right_comm, hplace] at hexit
    rw [Nat.add_right_comm, hbetween] at hnested
    obtain ⟨hk, hget⟩ := List.getElem?_eq_some_iff.1 hexit
    refine ⟨after.take k, outcome, after.drop (k + 1), hnested, ?_, ?_⟩
    · rw [← hget, List.getElem_cons_drop, List.take_append_drop]
    · rw [List.length_take_of_le (Nat.le_of_lt hk)]
      omega
  · rintro ⟨inside, outcome, later, hnested, rfl, rfl⟩
    refine ⟨by omega, c, outcome, by simp, ?_, ?_⟩
    · rw [hplace]
      simp
    · rw [hbetween, List.take_left]
      exact hnested

theorem WellNested.existsUnique_partner (h : WellNested lines)
    (hentry : lines[i]? = some (.entry c)) : ∃! j, Partners lines i j := by
  obtain ⟨hi, hget⟩ := List.getElem?_eq_some_iff.1 hentry
  obtain ⟨before, after, rfl, rfl⟩ :
      ∃ before after, lines = before ++ .entry c :: after ∧ before.length = i :=
    ⟨lines.take i, lines.drop (i + 1), by rw [← hget, List.getElem_cons_drop,
      List.take_append_drop], List.length_take_of_le (Nat.le_of_lt hi)⟩
  obtain ⟨inside, outcome, later, hinside, rfl⟩ := h.exists_exit rfl
  refine ⟨_, partners_iff.2 ⟨inside, outcome, later, hinside, rfl, rfl⟩, fun j hj => ?_⟩
  obtain ⟨inside', outcome', later', hinside', heq, rfl⟩ := partners_iff.1 hj
  obtain ⟨rfl, -⟩ := hinside.inside_unique hinside' heq
  rfl

end CallLine

theorem CallHistory.wellNested_lines (h : CallHistory) : CallLine.WellNested h.lines := by
  induction h with
  | none => exact .nil
  | made c outcome inside later ihinside ihlater => exact .call c outcome ihinside ihlater

/-! ### The log of a tree of calls -/

namespace CallTree

variable {σ : Type}

/-- A function without parameters. -/
private def nullary (name : String) (log : CallLog) : LoggedCall where
  log := log
  channel := "app"
  signature := ⟨name, name, []⟩
  arguments := ⟨[], []⟩
  time := 0
  fits := rfl
  writable := nofun

end CallTree

end FuzzyAlgebra

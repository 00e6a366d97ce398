import FuzzyAlgebra.Proofs.Trace

/-!
# Failures and alarms

An alarm is a log record at the level of a warning or above. A computation reports its failures if
it leaves exactly one alarm when it ends with an error of the library, and none when it ends
otherwise. A computation that is made of parts which report their failures reports its own: a part
that succeeds is silent, and after one that fails nothing runs.
-/

namespace FuzzyAlgebra

/-- Whether the fault is one of the errors that the library defines. -/
def Fault.isLibraryError : Fault → Bool
  | failure _ => true
  | raised _ => true
  | mishap _ => false

def LogRecord.isAlarm (r : LogRecord) : Bool := decide (Level.warning ≤ r.level)

/-- The number of alarms that belong to an end of a computation. -/
def expectedAlarms {α : Type} : Except Fault α → Nat
  | .ok _ => 0
  | .error e => if e.isLibraryError then 1 else 0

namespace Traced

variable {α β : Type} {t : Traced α}

def alarms (t : Traced α) : List LogRecord := t.records.filter LogRecord.isAlarm

def Reports (t : Traced α) : Prop := t.alarms.length = expectedAlarms t.result

theorem Reports.alarms_of_ok (ht : t.Reports) {a : α} (h : t.result = .ok a) : t.alarms = [] := by
  rw [Reports, h] at ht
  exact List.eq_nil_of_length_eq_zero ht

theorem Reports.length_of_error (ht : t.Reports) {e : Fault} (h : t.result = .error e)
    (he : e.isLibraryError = true) : t.alarms.length = 1 := by
  rw [Reports, h, expectedAlarms, if_pos he] at ht
  exact ht

theorem reports_pure (a : α) : (pure a : Traced α).Reports := rfl

theorem reports_log {level : Level} (h : ¬ Level.warning ≤ level) (channel : String)
    (message : Thunk String) : (log level channel message).Reports := by
  have hsilent : LogRecord.isAlarm (.telling level channel message) = false := decide_eq_false h
  have halarms : (log level channel message).alarms = [] :=
    List.filter_cons_of_neg (by rw [hsilent]; exact Bool.false_ne_true)
  rw [Reports, halarms]
  rfl

theorem reports_failWith {level : Level} (h : Level.warning ≤ level) (channel : String)
    (message : Thunk String) (f : Failure) :
    (failWith level channel message f : Traced α).Reports := by
  have halarm : LogRecord.isAlarm (.telling level channel message) = true := decide_eq_true h
  have halarms : (failWith level channel message f : Traced α).alarms =
      [.telling level channel message] :=
    List.filter_cons_of_pos halarm
  rw [Reports, halarms]
  rfl

theorem reports_log_debug (channel : String) (message : Thunk String) :
    (log .debug channel message).Reports :=
  reports_log (by decide) channel message

theorem reports_failWith_error (channel : String) (message : Thunk String) (f : Failure) :
    (failWith .error channel message f : Traced α).Reports :=
  reports_failWith (by decide) channel message f

theorem reports_failQuoting {level : Level} (h : Level.warning ≤ level) (v : Value)
    (channel : String) (message : Thunk String) (f : Failure) :
    (failQuoting v level channel message f : Traced α).Reports := by
  unfold failQuoting
  split
  · exact reports_failWith h channel message f
  · rfl

theorem reports_ofMishap (r : Except Mishap α) : (ofMishap r).Reports := by
  cases r <;> rfl

theorem Reports.bind (ht : t.Reports) {f : α → Traced β} (hf : ∀ a, (f a).Reports) :
    (t >>= f).Reports := by
  cases h : t.result with
  | ok a =>
    have hsilent : (t.events.filterMap Event.record?).filter LogRecord.isAlarm = [] :=
      ht.alarms_of_ok h
    rw [bind_of_ok h, Reports, alarms, records, List.filterMap_append, List.filter_append, hsilent]
    exact hf a
  | error e =>
    rw [Reports, h] at ht
    rw [bind_of_error h]
    exact ht

end Traced

namespace Action

variable {σ α β : Type} {act : Action σ α}

/-- Every failure of the action is told by one alarm, in whatever state it runs. -/
def Reports (act : Action σ α) : Prop := ∀ s, (act s).1.Reports

theorem reports_ofTraced {t : Traced α} (h : t.Reports) : (ofTraced t : Action σ α).Reports :=
  fun _ => h

theorem reports_pure (a : α) : (pure a : Action σ α).Reports := fun _ => Traced.reports_pure a

theorem reports_inspect {f : σ → Traced α} (h : ∀ s, (f s).Reports) : (inspect f).Reports := h

theorem reports_read : (read : Action σ σ).Reports := fun s => Traced.reports_pure s

theorem reports_write (s : σ) : (write s).Reports := fun _ => Traced.reports_pure ()

theorem reports_modify (f : σ → σ) : (modify f).Reports := fun _ => Traced.reports_pure ()

theorem Reports.bind (hact : act.Reports) {f : α → Action σ β} (hf : ∀ a, (f a).Reports) :
    (act >>= f).Reports := by
  intro s
  have hpart : ((act s).1 >>= fun a => (f a (act s).2).1).Reports :=
    (hact s).bind fun a => hf a (act s).2
  cases h : (act s).1.result with
  | ok a =>
    rw [Traced.bind_of_ok h] at hpart
    rw [bind_of_ok h]
    exact hpart
  | error e =>
    rw [Traced.bind_of_error h] at hpart
    rw [bind_of_error h]
    exact hpart

end Action

end FuzzyAlgebra

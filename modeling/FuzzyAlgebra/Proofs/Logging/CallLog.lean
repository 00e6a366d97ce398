import FuzzyAlgebra.Logging.CallLog
import FuzzyAlgebra.Proofs.Trace

/-!
# Logged calls end like the calls themselves

The log around a body adds events only: a record before those of the body and one after them, which
tells how the body ended. The result and the state are those of the body as long as that end can be
written. An end that cannot be written is not told, and the call ends with that mishap.
-/

namespace FuzzyAlgebra

/-- The report of a failure can be written: its message is a text. -/
theorem Failure.text_report (f : Failure) :
    f.report.text = .ok ("[" ++ f.code.text ++ "] " ++ f.message) := by
  have hcode : f.code.text ≠ "" := by cases f.code <;> decide
  have hfilter : (some f.code.text).filter (· ≠ "") = some f.code.text := by simp [hcode]
  simp only [report, Report.text, hfilter]
  rfl

/-- A record as it is told: how loudly, on which channel, and the message, if it can be written. -/
def LogRecord.told (r : LogRecord) : Level × String × Option String :=
  (r.level, r.channel, r.message.get)

namespace Traced

/-- The records of a computation as they are told. -/
def told {α : Type} (t : Traced α) : List (Level × String × Option String) :=
  t.records.map LogRecord.told

end Traced

namespace Action

variable {σ α β : Type} {act : Action σ α} {s : σ}

theorem told_bind_of_ok {a : α} (h : (act s).1.result = .ok a) (f : α → Action σ β) :
    ((act >>= f) s).1.told = (act s).1.told ++ (f a (act s).2).1.told := by
  rw [bind_of_ok h, Traced.told, Traced.records, List.filterMap_append, List.map_append]
  rfl

end Action

namespace CallLog

section Leave

variable {α : Type} {log : CallLog} {name : String} {time : Binary64}
  {result : α → Except Mishap String} {outcome : Except Fault α}

theorem leave_of_ok {level : Level} {message : String} (channel : String)
    (h : log.ending name time result outcome = .ok (level, message)) :
    (log.leave channel name time result outcome).result = outcome ∧
      (log.leave channel name time result outcome).told = [(level, channel, some message)] := by
  rw [leave, h]
  exact ⟨rfl, rfl⟩

theorem leave_of_error {m : Mishap} (channel : String)
    (h : log.ending name time result outcome = .error m) :
    (log.leave channel name time result outcome).result = .error (.mishap m) ∧
      (log.leave channel name time result outcome).told = [] := by
  rw [leave, h]
  exact ⟨rfl, rfl⟩

/-- A failure can be written, and so can a result that is not shown. -/
theorem result_leave_standard (channel name : String) (time : Binary64)
    (result : α → Except Mishap String) (h : ∀ e, outcome = .error e → ∃ f, e = .failure f) :
    (standard.leave channel name time result outcome).result = outcome := by
  cases outcome with
  | ok a => exact (leave_of_ok channel rfl).1
  | error e =>
    obtain ⟨f, rfl⟩ := h e rfl
    have hending : standard.ending name time result (.error (.failure f) : Except Fault α) = .ok
        (.error, "Exception in " ++ name ++ " after " ++ seconds time ++ ": " ++ f.kind.name ++
          ": " ++ ("[" ++ f.code.text ++ "] " ++ f.message)) := by
      rw [ending, Fault.text, f.text_report]
      rfl
    exact (leave_of_ok channel hending).1

/-- Only an error that came out of the body itself is handed on. -/
theorem raised_of_leave {channel : String} {r : Report}
    (h : (log.leave channel name time result outcome).result = .error (.raised r)) :
    outcome = .error (.raised r) := by
  cases hending : log.ending name time result outcome with
  | ok message =>
    rw [(leave_of_ok channel hending).1] at h
    exact h
  | error m =>
    rw [(leave_of_error channel hending).1] at h
    cases h

end Leave

/-- The log around a body adds one record before it, and leaves it by its outcome. -/
theorem around_eq {σ α : Type} (log : CallLog) (channel name : String)
    (arguments : Option (List (String × String))) (time : Binary64)
    (result : α → Except Mishap String) (body : Action σ α) (s : σ) :
    (log.around channel name arguments time result body s).1.result =
        (log.leave channel name time result (body s).1.result).result ∧
      (log.around channel name arguments time result body s).2 = (body s).2 ∧
      (log.around channel name arguments time result body s).1.told =
        (log.entryLevel, channel, some ("Entering " ++ name ++ argumentsText arguments)) ::
          (body s).1.told ++ (log.leave channel name time result (body s).1.result).told := by
  have hentry : ((Traced.log log.entryLevel channel
      ("Entering " ++ name ++ argumentsText arguments) : Action σ Unit) s).1.result = .ok () := rfl
  have hattempt : (body.attempt s).1.result = .ok (body s).1.result := rfl
  unfold around
  rw [Action.result_bind_of_ok hentry, Action.state_bind_of_ok hentry,
    Action.told_bind_of_ok hentry]
  refine ⟨Action.result_bind_of_ok hattempt _, Action.state_bind_of_ok hattempt _, ?_⟩
  exact congrArg (_ :: ·) (Action.told_bind_of_ok hattempt _)

/-! ### The text of a result -/

theorem shown_of_isWritable {v : Value} (h : v.isWritable) : shown v = .ok (shown.written v) :=
  if_pos h

theorem shown_eq (v : Value) : shown v =
    match v with
    | .text text => .ok text
    | .scalar (.float64 x) => .ok x.render
    | v => if v.isWritable then .ok v.display else .error .malformed := by
  cases v with
  | scalar s => cases s <;> rfl
  | _ => rfl

theorem clipped_of_length_le {text : String} (h : text.length ≤ 1000) : clipped text = text := by
  rw [clipped, resultLimit, if_neg (by omega)]

theorem clipped_of_lt_length {text : String} (h : 1000 < text.length) :
    (clipped text).length = 1000 ∧
      (clipped text).toList = text.toList.take 997 ++ ['.', '.', '.'] := by
  have htext : 997 ≤ text.toList.length := by
    rw [String.length_toList]
    omega
  rw [clipped, resultLimit, if_pos h]
  constructor
  · rw [← String.length_toList]
    simp [htext]
  · simp

end CallLog

end FuzzyAlgebra

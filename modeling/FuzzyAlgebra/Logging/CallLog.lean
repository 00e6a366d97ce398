import FuzzyAlgebra.Logging.Signature
import FuzzyAlgebra.Trace

/-!
# Logged calls

A function can log when it is entered and when it is left, normally or by a fault, with the seconds
in between. The log changes neither its result nor its fault, as long as they can be written.
-/

namespace FuzzyAlgebra

/-- What is logged about calls, and how loudly. -/
structure CallLog where
  showsArguments : Bool
  showsResult : Bool
  entryLevel : Level
  exitLevel : Level
  faultLevel : Level

namespace CallLog

def standard : CallLog := ⟨false, false, .debug, .debug, .error⟩

/-- A value in a log: text and plain numbers as they are, all else as it is written. -/
def shown (v : Value) : Except Mishap String :=
  if v.isWritable then .ok (written v) else .error .malformed
where
  written : Value → String
    | .text s => s
    | .scalar (.float64 x) => x.render
    | v => v.display

/-- The greatest length of a result in a log, in characters. -/
def resultLimit : Nat := 1000

/-- A text no longer than the limit; of a longer one the end is replaced by dots. -/
def clipped (s : String) : String :=
  if resultLimit < s.length then String.ofList (s.toList.take (resultLimit - 3)) ++ "..." else s

/-- The seconds between the first two readings of a clock that shows zero after the last. -/
def elapsed (readings : List Binary64) : Binary64 := readings.getD 1 0 - readings.getD 0 0

def seconds (x : Binary64) : String := x.renderFixed 3 ++ "s"

/-- The arguments of a call; nothing, if there are none to show. -/
def argumentsText : Option (List (String × String)) → String
  | none => ""
  | some arguments =>
    " with args: " ++ ", ".intercalate (arguments.map fun (name, text) => name ++ "=" ++ text)

/-- What is said of a result when a call is left: nothing, or the text that it is given. -/
def resultText {α : Type} (log : CallLog) (result : α → Except Mishap String) (a : α) :
    Except Mishap String :=
  if log.showsResult then (result a).map fun text => " with result: " ++ clipped text else .ok ""

/-- How loudly the end of a body is logged, and what is said of it, if that can be written. -/
def ending {α : Type} (log : CallLog) (name : String) (time : Binary64)
    (result : α → Except Mishap String) (outcome : Except Fault α) :
    Except Mishap (Level × String) :=
  match outcome with
  | .ok a => do
    let text ← log.resultText result a
    pure (log.exitLevel, "Exiting " ++ name ++ " after " ++ seconds time ++ text)
  | .error e => do
    let text ← e.text
    pure (log.faultLevel,
      "Exception in " ++ name ++ " after " ++ seconds time ++ ": " ++ e.name ++ ": " ++ text)

/-- Logs how a body ended and ends like it; if that cannot be written, it is a mishap instead. -/
def leave {α : Type} (log : CallLog) (channel name : String) (time : Binary64)
    (result : α → Except Mishap String) (outcome : Except Fault α) : Traced α := do
  let (level, message) ← .ofMishap (log.ending name time result outcome)
  .log level channel message
  .ofExcept outcome

/-- Runs the body of a function between its two log records. -/
def around {σ α : Type} (log : CallLog) (channel name : String)
    (arguments : Option (List (String × String))) (time : Binary64)
    (result : α → Except Mishap String) (body : Action σ α) : Action σ α := do
  Traced.log log.entryLevel channel ("Entering " ++ name ++ argumentsText arguments)
  let outcome ← body.attempt
  log.leave channel name time result outcome

/-- The arguments as the log shows them; the receiver of a method is left out. -/
def shownArguments (matching : List (String × Value)) : Except Mishap (List (String × String)) :=
  (matching.filter fun (name, _) => name ≠ "self").mapM fun (name, v) => do
    pure (name, ← shown v)

/-- A call of a function by its signature. Arguments are matched before anything is logged if they
are to be shown, and otherwise when the function is called. -/
def call {σ : Type} (log : CallLog) (channel : String) (s : Signature) (a : Arguments)
    (time : Binary64) (body : Action σ Value) : Action σ Value :=
  let run (arguments : Option (List (String × String))) : Action σ Value :=
    log.around channel s.qualifiedName arguments time shown
      (match s.problem? a with
        | some message => Traced.mishap (.badCall message)
        | none => body)
  if log.showsArguments && !a.isEmpty then
    match s.matched? a with
    | none => Traced.mishap .wrongType
    | some matching => do
      let arguments ← Traced.ofMishap (shownArguments matching)
      run (some arguments)
  else run none

end CallLog

end FuzzyAlgebra

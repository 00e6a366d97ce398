/-!
# Log records

A record has a level, the channel it was sent on, a message and, once it has passed through a log
context, the operation that was running.
-/

namespace FuzzyAlgebra

/-- How important a log record is. -/
structure Level where
  rank : Int
  deriving DecidableEq, Repr

namespace Level

def unset : Level := ⟨0⟩
def debug : Level := ⟨10⟩
def info : Level := ⟨20⟩
def warning : Level := ⟨30⟩
def error : Level := ⟨40⟩
def critical : Level := ⟨50⟩

instance : LE Level := ⟨fun a b => a.rank ≤ b.rank⟩
instance (a b : Level) : Decidable (a ≤ b) := inferInstanceAs (Decidable (a.rank ≤ b.rank))

/-- The name of a level; levels between the named ones are numbered. -/
def name (l : Level) : String :=
  if l = unset then "NOTSET"
  else if l = debug then "DEBUG"
  else if l = info then "INFO"
  else if l = warning then "WARNING"
  else if l = error then "ERROR"
  else if l = critical then "CRITICAL"
  else "Level " ++ toString l.rank

def words : List (String × Level) :=
  [("CRITICAL", critical), ("FATAL", critical), ("ERROR", error), ("WARN", warning),
    ("WARNING", warning), ("INFO", info), ("DEBUG", debug), ("NOTSET", unset)]

def ofWord? (word : String) : Option Level :=
  (words.find? fun (w, _) => w = word).map Prod.snd

end Level

namespace Channel

def package : String := "fuzzylang"
def membership : String := "fuzzylang.fuzzy.membership"
def operators : String := "fuzzylang.fuzzy.operators"
def sets : String := "fuzzylang.fuzzy.sets"
def config : String := "fuzzylang.fuzzy.config"
def scope : String := "fuzzylang.runtime.scope"
def gate : String := "fuzzylang.runtime.gate"

end Channel

/-- A log record. Its message is made only if somebody reads it, and may turn out to be one that
cannot be written. -/
structure LogRecord where
  level : Level
  channel : String
  message : Thunk (Option String)
  operation : Option String

/-- A record with a message that can be written, as it is before it passes through a context. -/
def LogRecord.telling (level : Level) (channel : String) (message : Thunk String) : LogRecord :=
  ⟨level, channel, message.map some, none⟩

end FuzzyAlgebra

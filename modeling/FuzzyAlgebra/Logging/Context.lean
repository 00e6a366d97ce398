import FuzzyAlgebra.Trace

/-!
# Log contexts

A stack of contexts says what is running. Every record that passes while a context is on the stack
takes the attributes of the innermost one; records are never dropped.
-/

namespace FuzzyAlgebra

/-- What is running: an operation, a function, and attributes of their own choice. -/
structure LogContext where
  operation : Option String
  function : Option String
  extra : List (String × Value)

namespace LogContext

/-- The context of a function that runs as an operation, by default named like the function. -/
def ofFunction (name qualifiedName : String) (operation : Option String)
    (extra : List (String × Value)) : LogContext :=
  ⟨some ((operation.filter (· ≠ "")).getD name), some qualifiedName, extra⟩

/-- Attributes with a new one: a name that is there keeps its place. -/
def setAttribute (name : String) (v : Value) : List (String × Value) → List (String × Value)
  | [] => [(name, v)]
  | (n, w) :: rest => if n = name then (n, v) :: rest else (n, w) :: setAttribute name v rest

def textAttribute (name : String) (text : Option String) : List (String × Value) :=
  match text.filter (· ≠ "") with
  | some s => [(name, .text s)]
  | none => []

/-- The attributes that records take: operation and function, unless empty, and all extra ones,
which may replace them. -/
def attributes (c : LogContext) : List (String × Value) :=
  c.extra.foldl (fun acc (name, v) => setAttribute name v acc)
    (textAttribute "operation" c.operation ++ textAttribute "function" c.function)

def enrich (c : LogContext) (r : LogRecord) : LogRecord :=
  match c.operation.filter (· ≠ "") with
  | some operation => { r with operation := some operation }
  | none => r

end LogContext

abbrev ContextStack : Type := List LogContext

namespace ContextStack

def current? (s : ContextStack) : Option LogContext := s.head?

def push (c : LogContext) (s : ContextStack) : ContextStack := c :: s

/-- The stack without its innermost context; an empty stack stays. -/
def pop (s : ContextStack) : ContextStack := s.tail

/-- The attributes that the innermost context gives to a record. -/
def attributes (s : ContextStack) : List (String × Value) :=
  match s.current? with
  | some c => c.attributes
  | none => []

def enrich (s : ContextStack) (r : LogRecord) : LogRecord :=
  match s.current? with
  | some c => c.enrich r
  | none => r

/-- The attributes that every record has before it meets a context. -/
def ownAttributes : List String :=
  ["name", "msg", "args", "levelname", "levelno", "pathname", "filename", "module", "exc_info",
    "exc_text", "stack_info", "lineno", "funcName", "created", "msecs", "relativeCreated",
    "thread", "threadName", "processName", "process", "taskName"]

def shownAttributes (r : LogRecord) : List (String × String) :=
  [("msg", r.message.get.getD ""), ("levelname", r.level.name), ("name", r.channel)]

/-- What the contexts add to a record: attributes of new names, and shown ones that they replace by
another value. -/
def addedTo (s : ContextStack) (r : LogRecord) : List (String × Value) :=
  s.attributes.filter fun (name, v) =>
    match (shownAttributes r).find? fun (own, _) => own = name with
    | some (_, text) => !v.sameNotation (.text text)
    | none => !ownAttributes.contains name

def takeOff : Action ContextStack (Option LogContext) := fun s => (Traced.pure s.current?, s.pop)

/-- Runs a body inside a context. Whatever the body leaves on the stack, one context is taken off
at the end. -/
def within {α : Type} (c : LogContext) (body : Action ContextStack α) : Action ContextStack α :=
  .bracket (.modify (push c)) (fun _ => body) takeOff

end ContextStack

end FuzzyAlgebra

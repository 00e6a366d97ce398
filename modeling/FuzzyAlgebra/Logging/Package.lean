import FuzzyAlgebra.Logging.Directory
import FuzzyAlgebra.Logging.Template
import FuzzyAlgebra.Text.Lower

/-!
# The log of the package

All channels of the package share one log. It has a level, which follows debug mode, and handlers,
which are replaced as a whole when the log is configured: one for the console and one for a file if
a directory is given. Every handler sends its records through the log contexts.
-/

namespace FuzzyAlgebra

/-- Where a handler writes: to the console, or to the log file of a directory. -/
inductive Sink where
  | console
  | file (directory : List String)
  deriving DecidableEq, Repr

namespace Sink

def handlerName : Sink → String
  | console => "StreamHandler"
  | file _ => "RotatingFileHandler"

end Sink

/-- What a record passes on its way to a sink. -/
inductive LogFilter where
  | contexts
  deriving DecidableEq, Repr

/-- A handler: where it writes, from which level on, in which layout, and what records pass before.
Its level is told as the value that it was set to. -/
structure LogHandler where
  sink : Sink
  level : Level
  told : Value
  template : Template
  filters : List LogFilter

namespace LogHandler

/-- Whether the records of the handler pass the log contexts. -/
def isEnriching (h : LogHandler) : Bool := h.filters.contains .contexts

/-- What the handler writes of a record: nothing if its level is too low, or if the layout cannot be
filled. Levels are coloured on the console only. -/
def text (h : LogHandler) (r : LogRecord) : String :=
  let line := match h.sink with
    | .console => h.template.colouredLine r
    | .file _ => h.template.line r
  match line with
  | .ok line => if h.level ≤ r.level then line ++ "\n" else ""
  | .error _ => ""

end LogHandler

def Level.ofValue : Value → Except Mishap Level
  | .int n => .ok ⟨n⟩
  | .bool b => .ok ⟨Numeral.ofTruth b⟩
  | .text word =>
    match Level.ofWord? word with
    | some level => .ok level
    | none => .error .malformed
  | _ => .error .wrongType

/-- The value by which a level is told: a word by its number, and a number as it is. -/
def Level.told (l : Level) : Value → Value
  | .text _ => .int l.rank
  | v => v

/-- How a log is to be set up. Apart from the directory, all of it can be values of any kind. -/
structure LogOptions where
  directory : Option String
  consoleLevel : Value
  fileLevel : Value
  /-- The size in mebibytes from which a file would be put aside. -/
  fileSize : Value
  /-- A dictionary of layouts that take the place of the standard ones, or nothing. -/
  layouts : Value

namespace LogOptions

def standard : LogOptions := ⟨none, .int Level.info.rank, .int Level.debug.rank, .int 10, .absent⟩

def names : List String :=
  ["console_level", "file_level", "max_file_size_mb", "backup_count", "config"]

/-- The options that are given by name; there are no others than the named ones. -/
def ofFields (directory : Option String) (fields : List (String × Value)) :
    Except Mishap LogOptions :=
  if fields.all fun (name, _) => names.contains name then
    let given (name : String) (default : Value) : Value := (fields.lookup name).getD default
    .ok
      { directory
        consoleLevel := given "console_level" standard.consoleLevel
        fileLevel := given "file_level" standard.fileLevel
        fileSize := given "max_file_size_mb" standard.fileSize
        layouts := given "config" standard.layouts }
  else .error .wrongType

def defaultConsoleFormat : String := "%(asctime)s | %(levelname)-8s | %(name)s | %(message)s"

/-- The layout of files by default, which also tells the place of the call. -/
def defaultFileFormat : String :=
  "%(asctime)s | %(levelname)-8s | %(name)s | %(module)s.%(funcName)s:%(lineno)d | %(message)s"

def directory? (o : LogOptions) : Option String := o.directory.filter (· ≠ "")

/-- The layout that is given under a name; only a dictionary can be asked for it. -/
def layout? (o : LogOptions) (name : String) : Except Mishap (Option Value) :=
  match o.layouts with
  | .absent => .ok none
  | .dict entries =>
    .ok (entries.findSome? fun (key, v) =>
      match key with
      | .text key => if key = name then some v else none
      | _ => none)
  | _ => .error .noSuchMember

/-- A handler from its level and the layout of a name, of which the level is looked at first. -/
def handler (o : LogOptions) (sink : Sink) (given : Value) (layout default : String) :
    Except Mishap LogHandler := do
  let level ← Level.ofValue given
  let template ← Template.ofValue ((← o.layout? layout).getD (.text default))
  pure ⟨sink, level, level.told given, template, [.contexts]⟩

def consoleHandler (o : LogOptions) : Except Mishap LogHandler :=
  o.handler .console o.consoleLevel "console_format" defaultConsoleFormat

def fileHandler (o : LogOptions) (directory : List String) : Except Mishap LogHandler :=
  o.handler (.file directory) o.fileLevel "file_format" defaultFileFormat

/-- The size in bytes has to compare with zero, which a sequence, repeated as often, does not. -/
def checkSize (o : LogOptions) : Except Mishap Unit := do
  match o.fileSize with
  | .text _ | .bytes _ | .list _ | .tuple _ => .error .wrongType
  | size =>
    let _ ← (← size.mul (.int (2 ^ 20))).gt (.int 0)
    pure ()

/-- The console's level as it is told: a number by its name, and a word by its number. -/
def levelText (o : LogOptions) : String :=
  match o.consoleLevel with
  | .text word => ((Level.ofWord? word).map fun level => toString level.rank).getD word
  | .bool true => "Level True"
  | v => ((Level.ofValue v).toOption.map Level.name).getD ""

def announcement (o : LogOptions) : LogRecord :=
  let target := match o.directory? with
    | some directory => " (console: " ++ o.levelText ++ ", files: " ++ directory ++ ")"
    | none => " (console only: " ++ o.levelText ++ ")"
  .telling .debug Channel.package (Thunk.mk fun _ => "fuzzylang logging initialized" ++ target)

end LogOptions

/-- The log: debug mode, level, handlers, and the files that were written. -/
structure PackageLog where
  debug : Bool
  level : Level
  handlers : List LogHandler
  tree : LogTree

/-- A record that was sent, with what it wrote to the console. -/
structure Emission where
  record : LogRecord
  console : String

namespace PackageLog

def levelFor (debug : Bool) : Level := if debug then .debug else .info

def outsideLevel : Level := .warning

def isInside (channel : String) : Bool :=
  channel = Channel.package || channel.startsWith (Channel.package ++ ".")

def effectiveLevel (log : PackageLog) (channel : String) : Level :=
  if isInside channel then log.level else outsideLevel

def write (r : LogRecord) (tree : LogTree) (h : LogHandler) : LogTree :=
  match h.sink with
  | .console => tree
  | .file directory => tree.append directory (h.text r)

def consoleText (handlers : List LogHandler) (r : LogRecord) : String :=
  String.join ((handlers.filter fun h => h.sink = .console).map fun h => h.text r)

/-- Sends a record, if its level is high enough; records of channels outside the package do not
come to this log. -/
def emit (log : PackageLog) (r : LogRecord) : PackageLog × List Emission :=
  if isInside r.channel ∧ log.level ≤ r.level then
    ({ log with tree := log.handlers.foldl (write r) log.tree },
      [⟨r, consoleText log.handlers r⟩])
  else (log, [])

def debugRecord (enabled : Bool) : LogRecord :=
  .telling .info Channel.package (if enabled then "Debug mode enabled" else "Debug mode disabled")

/-- Switches debug mode; only a change has an effect and is reported. -/
def setDebug (log : PackageLog) (enabled : Bool) : PackageLog × List Emission :=
  if log.debug = enabled then (log, [])
  else if enabled then
    { log with debug := true, level := levelFor true }.emit (debugRecord true)
  else
    let (log, emissions) := { log with debug := false }.emit (debugRecord false)
    ({ log with level := levelFor false }, emissions)

/-! ### Setting up -/

/-- A part of the set-up; what it did to the log before it failed stays. -/
abbrev Setup (α : Type) : Type := ExceptT Mishap (StateM PackageLog) α

def addHandler (h : LogHandler) : Setup Unit :=
  modify fun log => { log with handlers := log.handlers ++ [h] }

/-- Makes a directory and opens its log file, then adds the handler. -/
def addFile (o : LogOptions) (path : String) : Setup Unit := do
  let (directory, tree) ← liftExcept (LogTree.make path (← get).tree)
  modify fun log => { log with tree }
  liftExcept o.checkSize
  let tree ← liftExcept (tree.openFile directory)
  modify fun log => { log with tree }
  addHandler (← liftExcept (o.fileHandler directory))
where
  liftExcept {α : Type} (r : Except Mishap α) : Setup α := ExceptT.mk (pure r)

def setUp (o : LogOptions) : Setup Unit := do
  modify fun log => { log with level := levelFor log.debug, handlers := [] }
  addHandler (← ExceptT.mk (pure o.consoleHandler))
  match o.directory? with
  | some path => addFile o path
  | none => pure ()

def configure (log : PackageLog) (o : LogOptions) :
    PackageLog × Except Mishap (List Emission) :=
  match (setUp o).run.run log with
  | (.ok (), log) =>
    let (log, emissions) := log.emit o.announcement
    (log, .ok emissions)
  | (.error m, log) => (log, .error m)

def fresh : PackageLog := ⟨false, .info, [], .empty⟩

def started (o : LogOptions) : PackageLog := (fresh.configure o).1

/-- The words of the environment that ask for debug mode, in any case. -/
def asksForDebug (word : Option String) : Bool :=
  ["1", "true", "yes"].contains (Text.lower (word.getD ""))

/-- The first half of loading the package: the environment can switch debug mode on, not off. -/
def wake (log : PackageLog) (word : Option String) : PackageLog × List Emission :=
  if asksForDebug word then log.setDebug true else (log, [])

def fileContent? (log : PackageLog) : Option String :=
  log.handlers.findSome? fun h =>
    match h.sink with
    | .file directory => log.tree.content? directory
    | .console => none

end PackageLog

end FuzzyAlgebra

import FuzzyAlgebra.Proofs.Logging.Emission
import Mathlib.Data.List.Chain

/-!
# Debug mode and handlers

Debug mode, the level and the handlers of the log are written by two operations: switching debug
mode and setting the log up. In whatever order these are called, the level follows debug mode and
the handlers are those of the last set-up. A switch is announced exactly if it changes debug mode,
so that the announcements alternate.
-/

namespace FuzzyAlgebra

/-- The handlers that the options ask for: one for the console, and one for a file in the directory,
if there is one. -/
inductive LogOptions.HandledBy (o : LogOptions) : List LogHandler → Prop
  | console {console : LogHandler} : o.directory? = none → o.consoleHandler = .ok console →
    HandledBy o [console]
  | withFile {path : String} {directory : List String} {before after : LogTree}
      {console file : LogHandler} : o.directory? = some path →
    LogTree.make path before = .ok (directory, after) → o.consoleHandler = .ok console →
    o.fileHandler directory = .ok file → HandledBy o [console, file]

theorem LogOptions.HandledBy.filters_eq {o : LogOptions} {handlers : List LogHandler}
    (h : o.HandledBy handlers) : ∀ handler ∈ handlers, handler.filters = [.contexts] := by
  cases h with
  | console _ hconsole =>
    simp [(PackageLog.handler_of_ok hconsole).2]
  | withFile _ _ hconsole hfile =>
    simp [(PackageLog.handler_of_ok hconsole).2, (PackageLog.handler_of_ok hfile).2]

theorem LogOptions.HandledBy.sinks_eq {o : LogOptions} {handlers : List LogHandler}
    (h : o.HandledBy handlers) :
    (o.directory? = none ∧ handlers.map LogHandler.sink = [.console]) ∨
      ∃ path directory, o.directory? = some path ∧
        handlers.map LogHandler.sink = [.console, .file directory] := by
  cases h with
  | console hnone hconsole =>
    exact .inl ⟨hnone, by simp [(PackageLog.handler_of_ok hconsole).1]⟩
  | @withFile path directory _ _ _ _ hsome _ hconsole hfile =>
    refine .inr ⟨path, directory, hsome, ?_⟩
    simp [(PackageLog.handler_of_ok hconsole).1, (PackageLog.handler_of_ok hfile).1]

namespace PackageLog

variable {log log' : PackageLog} {o : LogOptions}

/-! ### What a set-up leaves behind -/

section Setup

variable {α β : Type} {b : β}

theorem run_get_bind (f : PackageLog → Setup β) :
    ((get : Setup PackageLog) >>= f).run.run log = (f log).run.run log :=
  rfl

theorem run_modify_bind (change : PackageLog → PackageLog) (f : Unit → Setup β) :
    ((modify change : Setup Unit) >>= f).run.run log = (f ()).run.run (change log) :=
  rfl

theorem exists_of_run_except_bind {r : Except Mishap α} {f : α → Setup β}
    (h : (ExceptT.mk (pure r) >>= f).run.run log = (.ok b, log')) :
    ∃ a, r = .ok a ∧ (f a).run.run log = (.ok b, log') := by
  cases r with
  | error m => cases h
  | ok a => exact ⟨a, rfl, h⟩

end Setup

theorem addFile_of_ok {path : String} (h : (addFile o path).run.run log = (.ok (), log')) :
    log'.debug = log.debug ∧ log'.level = log.level ∧
      ∃ directory made file, LogTree.make path log.tree = .ok (directory, made) ∧
        o.fileHandler directory = .ok file ∧ log'.handlers = log.handlers ++ [file] := by
  rw [addFile, run_get_bind] at h
  obtain ⟨⟨directory, made⟩, hmade, h⟩ := exists_of_run_except_bind h
  rw [run_modify_bind] at h
  obtain ⟨_, -, h⟩ := exists_of_run_except_bind h
  obtain ⟨opened, -, h⟩ := exists_of_run_except_bind h
  rw [run_modify_bind] at h
  obtain ⟨file, hfile, h⟩ := exists_of_run_except_bind h
  cases h
  exact ⟨rfl, rfl, directory, made, file, hmade, hfile, rfl⟩

theorem setUp_of_ok (h : (setUp o).run.run log = (.ok (), log')) :
    log'.debug = log.debug ∧ log'.level = levelFor log.debug ∧ o.HandledBy log'.handlers := by
  rw [setUp, run_modify_bind] at h
  obtain ⟨console, hconsole, h⟩ := exists_of_run_except_bind h
  rw [addHandler, run_modify_bind] at h
  cases hdirectory : o.directory? with
  | none =>
    rw [hdirectory] at h
    cases h
    exact ⟨rfl, rfl, .console hdirectory hconsole⟩
  | some path =>
    rw [hdirectory] at h
    obtain ⟨hdebug, hlevel, directory, made, file, hmade, hfile, hhandlers⟩ := addFile_of_ok h
    rw [hhandlers]
    exact ⟨hdebug, hlevel, .withFile hdirectory hmade hconsole hfile⟩

/-- The level follows debug mode, and the handlers are those of the options. -/
structure Configured (o : LogOptions) (log : PackageLog) : Prop where
  follows : log.Follows
  handledBy : o.HandledBy log.handlers

theorem configured_of_configure {heard : List Emission}
    (h : log.configure o = (log', .ok heard)) : Configured o log' ∧ log'.debug = log.debug := by
  unfold configure at h
  split at h
  · rename_i ready hready
    obtain ⟨hdebug, hlevel, hhandlers⟩ := setUp_of_ok hready
    have hsame := (emit_eq ready o.announcement).1
    obtain rfl : (ready.emit o.announcement).1 = log' := congrArg Prod.fst h
    have hfollows : ready.Follows := by
      rw [Follows, hlevel, hdebug]
    refine ⟨⟨hsame.follows hfollows, ?_⟩, hsame.debug_eq.trans hdebug⟩
    rw [hsame.handlers_eq]
    exact hhandlers
  · cases h

/-! ### Switching debug mode -/

/-- A change is announced while the level of debug mode lets the record through: after debug mode
was switched on, and before it is switched off. -/
theorem heard_setDebug (h : log.Follows) (enabled : Bool) :
    (log.setDebug enabled).2 =
      if log.debug = enabled then [] else [log.emission (debugRecord enabled)] := by
  by_cases hsame : log.debug = enabled
  · rw [setDebug, if_pos hsame, if_pos hsame]
  · rw [setDebug, if_neg hsame, if_neg hsame]
    cases enabled with
    | true =>
      exact (emit_eq { log with debug := true, level := levelFor true } (debugRecord true)).2
    | false =>
      have hdebug : log.debug = true := by simpa using hsame
      have hlevel : log.level = levelFor true := h.trans (congrArg levelFor hdebug)
      have haccepts : accepts { log with debug := false } (debugRecord false) = true := by
        rw [accepts, hlevel]
        rfl
      have hheard := (emit_eq { log with debug := false } (debugRecord false)).2
      rw [if_pos haccepts] at hheard
      exact hheard

end PackageLog

open PackageLog

/-! ### One call after the other -/

/-- The log when the package was loaded: the environment can ask for debug mode and name a
directory. -/
def PackageLog.load (tree : LogTree) (word directory : Option String) :
    PackageLog × Except Mishap (List Emission) :=
  ({ fresh with tree }.wake word).1.configure { LogOptions.standard with directory }

/-- A call that writes the settings of the log. -/
inductive LogControl where
  | setDebug (enabled : Bool)
  | configure (o : LogOptions)

/-- A call that returned, with the log before and after it and what was heard in between. -/
structure ControlReport where
  control : LogControl
  before : PackageLog
  heard : List Emission
  after : PackageLog

namespace LogControl

def perform (log : PackageLog) : LogControl → PackageLog × Except Mishap (List Emission)
  | setDebug enabled =>
    let (log, heard) := log.setDebug enabled
    (log, .ok heard)
  | configure o => log.configure o

/-- The options of the last set-up. -/
def options (o : LogOptions) : LogControl → LogOptions
  | setDebug _ => o
  | configure o' => o'

/-- Makes the calls one after the other, as long as they return. -/
def run : List LogControl → PackageLog → Except Mishap (List ControlReport × PackageLog)
  | [], log => .ok ([], log)
  | control :: rest, log =>
    match control.perform log with
    | (_, .error m) => .error m
    | (after, .ok heard) =>
      (run rest after).map fun (reports, last) => (⟨control, log, heard, after⟩ :: reports, last)

variable {control : LogControl} {controls : List LogControl} {reports : List ControlReport}
  {log log' last : PackageLog} {o : LogOptions} {heard : List Emission}

theorem exists_of_run_cons (h : run (control :: controls) log = .ok (reports, last)) :
    ∃ after heard rest, control.perform log = (after, .ok heard) ∧
      run controls after = .ok (rest, last) ∧ reports = ⟨control, log, heard, after⟩ :: rest := by
  rw [run] at h
  rcases hcontrol : control.perform log with ⟨after, m | heard⟩
  · rw [hcontrol] at h
    cases h
  · rw [hcontrol] at h
    dsimp only at h
    rcases hrest : run controls after with m | ⟨rest, last'⟩
    · rw [hrest] at h
      cases h
    · rw [hrest] at h
      cases h
      exact ⟨after, heard, rest, rfl, hrest, rfl⟩

theorem configured_of_perform (h : Configured o log)
    (hcontrol : control.perform log = (log', .ok heard)) : Configured (control.options o) log' := by
  cases control with
  | setDebug enabled =>
    obtain rfl : (log.setDebug enabled).1 = log' := congrArg Prod.fst hcontrol
    obtain ⟨hdebug, hlevel, hhandlers⟩ := setDebug_eq h.follows enabled
    refine ⟨?_, ?_⟩
    · rw [Follows, hdebug, hlevel]
    · rw [hhandlers]
      exact h.handledBy
  | configure o' => exact (configured_of_configure hcontrol).1

end LogControl

namespace ControlReport

/-- The call was made in a log whose level follows debug mode. -/
structure Sound (report : ControlReport) : Prop where
  follows : report.before.Follows
  perform_eq : report.control.perform report.before = (report.after, .ok report.heard)

/-- What debug mode was set to, if that changed it. -/
def switches (report : ControlReport) : List Bool :=
  match report.control with
  | .setDebug enabled => if report.before.debug = enabled then [] else [enabled]
  | .configure _ => []

/-- What switching debug mode sent. What a set-up sends is left out. -/
def announced (report : ControlReport) : List LogRecord :=
  match report.control with
  | .setDebug _ => report.heard.map Emission.record
  | .configure _ => []

variable {report : ControlReport}

theorem Sound.setDebug {enabled : Bool} (h : report.Sound)
    (hcontrol : report.control = .setDebug enabled) :
    report.after.debug = enabled ∧ report.after.handlers = report.before.handlers ∧
      report.heard = if report.before.debug = enabled then []
        else [report.before.emission (debugRecord enabled)] := by
  have hperform := h.perform_eq
  rw [hcontrol] at hperform
  obtain ⟨hdebug, -, hhandlers⟩ := setDebug_eq h.follows enabled
  have hafter : (report.before.setDebug enabled).1 = report.after := congrArg Prod.fst hperform
  have hheard : (report.before.setDebug enabled).2 = report.heard :=
    Except.ok.inj (congrArg Prod.snd hperform)
  rw [← hafter, ← hheard]
  exact ⟨hdebug, hhandlers, heard_setDebug h.follows enabled⟩

theorem Sound.switches_cases (h : report.Sound) :
    (report.switches = [] ∧ report.after.debug = report.before.debug) ∨
      (report.switches = [report.after.debug] ∧ report.before.debug ≠ report.after.debug) := by
  cases hcontrol : report.control with
  | setDebug enabled =>
    obtain ⟨hdebug, -, -⟩ := h.setDebug hcontrol
    rw [switches, hcontrol, hdebug]
    by_cases hsame : report.before.debug = enabled
    · exact .inl ⟨if_pos hsame, hsame.symm⟩
    · exact .inr ⟨if_neg hsame, hsame⟩
  | configure o =>
    have hperform := h.perform_eq
    rw [hcontrol] at hperform
    rw [switches, hcontrol]
    exact .inl ⟨rfl, (configured_of_configure hperform).2⟩

theorem Sound.announced_eq (h : report.Sound) :
    report.announced = report.switches.map debugRecord := by
  cases hcontrol : report.control with
  | setDebug enabled =>
    obtain ⟨-, -, hheard⟩ := h.setDebug hcontrol
    rw [announced, switches, hcontrol, hheard]
    by_cases hsame : report.before.debug = enabled
    · simp [hsame]
    · simp [hsame, emission]
  | configure o => rw [announced, switches, hcontrol, List.map_nil]

end ControlReport

namespace LogControl

variable {controls : List LogControl} {reports : List ControlReport} {log last : PackageLog}
  {o : LogOptions}

theorem configured_of_run (h : Configured o log) (hrun : run controls log = .ok (reports, last)) :
    Configured (controls.foldl options o) last ∧ ∀ report ∈ reports, report.Sound := by
  induction controls generalizing o log reports with
  | nil =>
    cases hrun
    exact ⟨h, nofun⟩
  | cons control controls ih =>
    obtain ⟨after, heard, rest, hcontrol, hrest, rfl⟩ := exists_of_run_cons hrun
    obtain ⟨hlast, hsound⟩ := ih (configured_of_perform h hcontrol) hrest
    exact ⟨hlast, List.forall_mem_cons.mpr ⟨⟨h.follows, hcontrol⟩, hsound⟩⟩

theorem controls_of_run (hrun : run controls log = .ok (reports, last)) :
    reports.map ControlReport.control = controls := by
  induction controls generalizing log reports with
  | nil =>
    cases hrun
    rfl
  | cons control controls ih =>
    obtain ⟨after, heard, rest, -, hrest, rfl⟩ := exists_of_run_cons hrun
    rw [List.map_cons, ih hrest]

theorem switches_of_run (hrun : run controls log = .ok (reports, last))
    (hsound : ∀ report ∈ reports, report.Sound) :
    (log.debug :: reports.flatMap ControlReport.switches).IsChain (· ≠ ·) ∧
      (reports.flatMap ControlReport.switches).getLastD log.debug = last.debug := by
  induction controls generalizing log reports with
  | nil =>
    cases hrun
    exact ⟨List.isChain_singleton _, rfl⟩
  | cons control controls ih =>
    obtain ⟨after, heard, rest, hcontrol, hrest, rfl⟩ := exists_of_run_cons hrun
    obtain ⟨hfirst, hothers⟩ := List.forall_mem_cons.mp hsound
    obtain ⟨hchain, hlast⟩ := ih hrest hothers
    rw [List.flatMap_cons]
    rcases hfirst.switches_cases with ⟨hnone, hkept⟩ | ⟨hone, hchanged⟩
    · rw [hkept] at hchain hlast
      rw [hnone]
      exact ⟨hchain, hlast⟩
    · rw [hone, List.singleton_append, List.getLastD_cons]
      exact ⟨List.isChain_cons_cons.mpr ⟨hchanged, hchain⟩, hlast⟩

end LogControl

theorem PackageLog.configured_of_load {tree : LogTree} {word directory : Option String}
    {start : PackageLog} {heard : List Emission}
    (h : load tree word directory = (start, .ok heard)) :
    Configured { LogOptions.standard with directory } start ∧
      start.debug = asksForDebug word := by
  obtain ⟨hconfigured, hdebug⟩ := configured_of_configure h
  have hfollows : Follows { fresh with tree } := rfl
  refine ⟨hconfigured, hdebug.trans ?_⟩
  rw [wake]
  split_ifs with hasks
  · rw [hasks]
    exact (setDebug_eq hfollows true).1
  · rw [Bool.eq_false_iff.mpr hasks]
    rfl

/-- **The settings of the log follow the calls.** From where the package was loaded, whatever calls
were made since then and returned: the log and all channels below it have the level of debug mode.
The log has the handlers of the last set-up and no others, one for the console and one for a file
exactly if a directory was given, an empty one being none, and each of them sends its records
through the contexts once. A call that switches debug mode sends its announcement if it changes
debug mode, and nothing if it does not. So the announcements alternate, and the last one tells the
mode that is left. -/
theorem PackageLog.settings_of_run {tree : LogTree} {word directory : Option String}
    {start last : PackageLog} {heard : List Emission} {controls : List LogControl}
    {reports : List ControlReport}
    (hload : load tree word directory = (start, .ok heard))
    (hrun : LogControl.run controls start = .ok (reports, last)) :
    let o := controls.foldl LogControl.options { LogOptions.standard with directory }
    (last.level = (if last.debug then .debug else .info) ∧
      ∀ channel, isInside channel = true → last.effectiveLevel channel = last.level) ∧
    (o.HandledBy last.handlers ∧
      ((o.directory? = none ∧ last.handlers.map LogHandler.sink = [.console]) ∨
        ∃ path place, o.directory? = some path ∧
          last.handlers.map LogHandler.sink = [.console, .file place]) ∧
      ∀ h ∈ last.handlers, h.filters = [.contexts]) ∧
    (reports.map ControlReport.control = controls ∧
      ∀ report ∈ reports, ∀ enabled, report.control = .setDebug enabled →
        report.after.debug = enabled ∧
        report.heard = if report.before.debug = enabled then []
          else [report.before.emission (debugRecord enabled)]) ∧
    ∃ switches : List Bool, reports.flatMap ControlReport.announced = switches.map debugRecord ∧
      (asksForDebug word :: switches).IsChain (· ≠ ·) ∧
      switches.getLastD (asksForDebug word) = last.debug := by
  intro o
  obtain ⟨hstart, hdebug⟩ := configured_of_load hload
  obtain ⟨hlast, hsound⟩ := LogControl.configured_of_run hstart hrun
  refine ⟨⟨hlast.follows, ?_⟩, ?_, ?_, ?_⟩
  · intro channel hinside
    rw [effectiveLevel, if_pos hinside]
  · exact ⟨hlast.handledBy, hlast.handledBy.sinks_eq, hlast.handledBy.filters_eq⟩
  · refine ⟨LogControl.controls_of_run hrun, ?_⟩
    intro report hreport enabled hcontrol
    obtain ⟨hset, -, hheard⟩ := (hsound report hreport).setDebug hcontrol
    exact ⟨hset, hheard⟩
  · obtain ⟨hchain, hleft⟩ := LogControl.switches_of_run hrun hsound
    rw [hdebug] at hchain hleft
    refine ⟨reports.flatMap ControlReport.switches, ?_, hchain, hleft⟩
    rw [List.map_flatMap]
    exact List.flatMap_congr fun report hreport => (hsound report hreport).announced_eq

/-- The environment asked for debug mode, so that asking for it again changes nothing, and an empty
directory brings no file. -/
theorem PackageLog.settings_of_run_without_file :
    let o := { LogOptions.standard with directory := some "", consoleLevel := .text "WARNING" }
    let controls : List LogControl :=
      [.setDebug true, .configure o, .setDebug false, .setDebug true]
    ∃ start heard reports last, load .empty (some "YES") none = (start, .ok heard) ∧
      LogControl.run controls start = .ok (reports, last) ∧ last.debug = true ∧
      last.level = .debug ∧ last.handlers.map LogHandler.sink = [.console] ∧
      ∃ switches : List Bool, reports.flatMap ControlReport.announced = switches.map debugRecord ∧
        (true :: switches).IsChain (· ≠ ·) ∧ switches.getLastD true = true := by
  intro o controls
  obtain ⟨start, heard, reports, last, hload, hrun, hdebug⟩ : ∃ start heard reports last,
      load .empty (some "YES") none = (start, .ok heard) ∧
      LogControl.run controls start = .ok (reports, last) ∧ last.debug = true :=
    ⟨_, _, _, _, rfl, rfl, rfl⟩
  obtain ⟨⟨hlevel, -⟩, ⟨-, hsinks, -⟩, -, hswitches⟩ := settings_of_run hload hrun
  rw [hdebug] at hlevel hswitches
  rcases hsinks with ⟨-, hsinks⟩ | ⟨path, place, hsome, -⟩
  · exact ⟨start, heard, reports, last, hload, hrun, hdebug, hlevel, hsinks, hswitches⟩
  · cases hsome

end FuzzyAlgebra

import FuzzyAlgebra.Logging.Package

/-!
# What the package log lets through

The log lets a record through by its channel and its level, whatever was sent before: sending only
writes files. Debug mode decides about nothing but the level, and the level about nothing but the
records below it. So a log out of debug mode lets through what the same log in debug mode does, less
the records below `info`.
-/

namespace FuzzyAlgebra.PackageLog

variable {log log' : PackageLog}

def accepts (log : PackageLog) (r : LogRecord) : Bool :=
  isInside r.channel && decide (log.level ≤ r.level)

/-- What listeners hear of a record that is let through. -/
def emission (log : PackageLog) (r : LogRecord) : Emission := ⟨r, consoleText log.handlers r⟩

/-- The logs differ in their files at most. -/
structure SameSettings (log log' : PackageLog) : Prop where
  debug_eq : log'.debug = log.debug
  level_eq : log'.level = log.level
  handlers_eq : log'.handlers = log.handlers

theorem SameSettings.refl (log : PackageLog) : SameSettings log log := ⟨rfl, rfl, rfl⟩

theorem SameSettings.trans {log'' : PackageLog} (h : SameSettings log log')
    (h' : SameSettings log' log'') : SameSettings log log'' :=
  ⟨h'.debug_eq.trans h.debug_eq, h'.level_eq.trans h.level_eq, h'.handlers_eq.trans h.handlers_eq⟩

theorem SameSettings.accepts_eq (h : SameSettings log log') : log'.accepts = log.accepts := by
  funext r
  rw [accepts, accepts, h.level_eq]

theorem SameSettings.emission_eq (h : SameSettings log log') : log'.emission = log.emission := by
  funext r
  rw [emission, emission, h.handlers_eq]

/-! ### Sending -/

theorem emit_eq (log : PackageLog) (r : LogRecord) :
    SameSettings log (log.emit r).1 ∧
      (log.emit r).2 = if log.accepts r then [log.emission r] else [] := by
  have haccepts : log.accepts r = true ↔ isInside r.channel = true ∧ log.level ≤ r.level := by
    simp [accepts]
  unfold emit
  by_cases h : isInside r.channel = true ∧ log.level ≤ r.level
  · rw [if_pos h, if_pos (haccepts.mpr h)]
    exact ⟨⟨rfl, rfl, rfl⟩, rfl⟩
  · rw [if_neg h, if_neg fun ha => h (haccepts.mp ha)]
    exact ⟨.refl log, rfl⟩

/-- Sends records one after the other. -/
def sendAll : List LogRecord → PackageLog → PackageLog × List Emission
  | [], log => (log, [])
  | r :: rest, log =>
    let (log, first) := log.emit r
    let (log, others) := sendAll rest log
    (log, first ++ others)

theorem sendAll_eq (records : List LogRecord) (log : PackageLog) :
    SameSettings log (sendAll records log).1 ∧
      (sendAll records log).2 = (records.filter log.accepts).map log.emission := by
  induction records generalizing log with
  | nil => exact ⟨.refl log, rfl⟩
  | cons r rest ih =>
    obtain ⟨hsame, hfirst⟩ := emit_eq log r
    obtain ⟨hrest, hothers⟩ := ih (log.emit r).1
    rw [hsame.accepts_eq, hsame.emission_eq] at hothers
    refine ⟨hsame.trans hrest, ?_⟩
    have hsent : (sendAll (r :: rest) log).2 =
        (log.emit r).2 ++ (sendAll rest (log.emit r).1).2 := rfl
    rw [hsent, hfirst, hothers]
    by_cases ha : log.accepts r = true
    · simp [ha]
    · simp [ha]

/-! ### Reachable logs -/

/-- The logs that a program can come to. -/
inductive Reached : PackageLog → Prop
  | fresh : Reached fresh
  | emit {log : PackageLog} (r : LogRecord) : Reached log → Reached (log.emit r).1
  | setDebug {log : PackageLog} (enabled : Bool) : Reached log → Reached (log.setDebug enabled).1
  | configure {log : PackageLog} (o : LogOptions) : Reached log → Reached (log.configure o).1

/-- The level follows debug mode. -/
def Follows (log : PackageLog) : Prop := log.level = levelFor log.debug

theorem SameSettings.follows (h : SameSettings log log') (hlog : log.Follows) : log'.Follows := by
  rw [Follows, h.level_eq, h.debug_eq]
  exact hlog

theorem setDebug_eq (h : log.Follows) (enabled : Bool) :
    (log.setDebug enabled).1.debug = enabled ∧
      (log.setDebug enabled).1.level = levelFor enabled ∧
      (log.setDebug enabled).1.handlers = log.handlers := by
  by_cases hsame : log.debug = enabled
  · subst hsame
    rw [setDebug, if_pos rfl]
    exact ⟨rfl, h, rfl⟩
  · rw [setDebug, if_neg hsame]
    cases enabled with
    | true =>
      obtain ⟨hsettings, -⟩ := emit_eq { log with debug := true, level := levelFor true }
        (debugRecord true)
      exact ⟨hsettings.debug_eq, hsettings.level_eq, hsettings.handlers_eq⟩
    | false =>
      obtain ⟨hsettings, -⟩ := emit_eq { log with debug := false } (debugRecord false)
      exact ⟨hsettings.debug_eq, rfl, hsettings.handlers_eq⟩

/-! ### Setting up -/

/-- All handlers send their records through the log contexts. -/
def Enriches (log : PackageLog) : Prop := ∀ h ∈ log.handlers, h.isEnriching = true

theorem SameSettings.enriches (h : SameSettings log log') (hlog : log.Enriches) :
    log'.Enriches := by
  rw [Enriches, h.handlers_eq]
  exact hlog

theorem exists_of_bind_eq_ok {α β : Type} {r : Except Mishap α} {f : α → Except Mishap β} {b : β}
    (h : (r >>= f) = .ok b) : ∃ a, f a = .ok b := by
  cases r with
  | error m => cases h
  | ok a => exact ⟨a, h⟩

theorem handler_of_ok {o : LogOptions} {sink : Sink} {given : Value} {layout default : String}
    {h : LogHandler} (hmade : o.handler sink given layout default = .ok h) :
    h.sink = sink ∧ h.filters = [.contexts] := by
  obtain ⟨level, hmade⟩ := exists_of_bind_eq_ok hmade
  obtain ⟨format, hmade⟩ := exists_of_bind_eq_ok hmade
  obtain ⟨template, hmade⟩ := exists_of_bind_eq_ok hmade
  cases hmade
  exact ⟨rfl, rfl⟩

theorem isEnriching_of_handler {o : LogOptions} {sink : Sink} {given : Value}
    {layout default : String} {h : LogHandler}
    (hmade : o.handler sink given layout default = .ok h) : h.isEnriching = true := by
  rw [LogHandler.isEnriching, (handler_of_ok hmade).2]
  rfl

/-- The part of a set-up leaves level and debug mode as they are, and adds only handlers that send
their records through the contexts, also where it fails. -/
structure Keeps {α : Type} (act : Setup α) : Prop where
  debug_eq : ∀ log, (act.run.run log).2.debug = log.debug
  level_eq : ∀ log, (act.run.run log).2.level = log.level
  enriches : ∀ log, log.Enriches → (act.run.run log).2.Enriches

section Keeps

variable {α β : Type}

theorem keeps_except (r : Except Mishap α) : Keeps (ExceptT.mk (pure r)) :=
  ⟨fun _ => rfl, fun _ => rfl, fun _ h => h⟩

theorem keeps_get : Keeps (get : Setup PackageLog) := ⟨fun _ => rfl, fun _ => rfl, fun _ h => h⟩

theorem Keeps.bind {act : Setup α} {f : α → Setup β} (hact : Keeps act) (hf : ∀ a, Keeps (f a)) :
    Keeps (act >>= f) := by
  have hbind (log : PackageLog) : (act >>= f).run.run log =
      (ExceptT.bindCont f (act.run.run log).1).run (act.run.run log).2 := rfl
  refine ⟨fun log => ?_, fun log => ?_, fun log hlog => ?_⟩
  · rw [hbind, ← hact.debug_eq log]
    cases (act.run.run log).1 with
    | error m => rfl
    | ok a => exact (hf a).debug_eq _
  · rw [hbind, ← hact.level_eq log]
    cases (act.run.run log).1 with
    | error m => rfl
    | ok a => exact (hf a).level_eq _
  · rw [hbind]
    have hfirst := hact.enriches log hlog
    cases (act.run.run log).1 with
    | error m => exact hfirst
    | ok a => exact (hf a).enriches _ hfirst

theorem keeps_bind_except {r : Except Mishap α} {f : α → Setup β}
    (hf : ∀ a, r = .ok a → Keeps (f a)) : Keeps (ExceptT.mk (pure r) >>= f) := by
  cases r with
  | error m => exact keeps_except (.error m)
  | ok a => exact hf a rfl

theorem keeps_addHandler {h : LogHandler} (henriching : h.isEnriching = true) :
    Keeps (addHandler h) := by
  refine ⟨fun _ => rfl, fun _ => rfl, fun log hlog => ?_⟩
  intro other hother
  rcases List.mem_append.mp hother with hold | hnew
  · exact hlog other hold
  · rw [List.mem_singleton.mp hnew]
    exact henriching

theorem keeps_writeTree (tree : LogTree) :
    Keeps (modify fun log => { log with tree } : Setup Unit) :=
  ⟨fun _ => rfl, fun _ => rfl, fun _ h => h⟩

theorem keeps_addFile (o : LogOptions) (path : String) : Keeps (addFile o path) := by
  refine keeps_get.bind fun log => keeps_bind_except fun made _ => ?_
  refine (keeps_writeTree made.2).bind fun _ => (keeps_except _).bind fun _ => ?_
  refine (keeps_except _).bind fun tree => (keeps_writeTree tree).bind fun _ => ?_
  exact keeps_bind_except fun h hmade => keeps_addHandler (isEnriching_of_handler hmade)

/-- What a first change brings about, the rest of the set-up keeps. -/
theorem Keeps.after_modify {f : PackageLog → PackageLog} {act : Unit → Setup α}
    (hact : Keeps (act ())) (hfollows : (f log).Follows) (henriches : (f log).Enriches) :
    ((modify f >>= act : Setup α).run.run log).2.Follows ∧
      ((modify f >>= act : Setup α).run.run log).2.Enriches := by
  refine ⟨?_, hact.enriches (f log) henriches⟩
  have hdebug := hact.debug_eq (f log)
  have hlevel := hact.level_eq (f log)
  exact hlevel.trans (hfollows.trans (congrArg levelFor hdebug.symm))

end Keeps

theorem setUp_eq (o : LogOptions) (log : PackageLog) :
    ((setUp o).run.run log).2.Follows ∧ ((setUp o).run.run log).2.Enriches := by
  unfold setUp
  refine Keeps.after_modify ?_ rfl nofun
  refine keeps_bind_except fun h hmade => ?_
  refine (keeps_addHandler (isEnriching_of_handler hmade)).bind fun _ => ?_
  split
  · exact keeps_addFile o _
  · exact keeps_except (.ok ())

theorem configure_eq (o : LogOptions) (log : PackageLog) :
    (log.configure o).1.Follows ∧ (log.configure o).1.Enriches := by
  have hsetUp := setUp_eq o log
  unfold configure
  split
  · rename_i log' hlog'
    rw [hlog'] at hsetUp
    have hannounced := (emit_eq log' o.announcement).1
    exact ⟨hannounced.follows hsetUp.1, hannounced.enriches hsetUp.2⟩
  · rename_i m log' hlog'
    rw [hlog'] at hsetUp
    exact hsetUp

theorem Reached.follows (h : Reached log) : log.Follows := by
  induction h with
  | fresh => rfl
  | emit r _ ih => exact (emit_eq _ r).1.follows ih
  | setDebug enabled _ ih =>
    obtain ⟨hdebug, hlevel, -⟩ := setDebug_eq ih enabled
    rw [Follows, hdebug, hlevel]
  | configure o _ _ => exact (configure_eq o _).1

theorem Reached.enriches (h : Reached log) : log.Enriches := by
  induction h with
  | fresh =>
    intro h hh
    cases hh
  | emit r _ ih => exact (emit_eq _ r).1.enriches ih
  | setDebug enabled hlog ih =>
    obtain ⟨-, -, hhandlers⟩ := setDebug_eq hlog.follows enabled
    rw [Enriches, hhandlers]
    exact ih
  | configure o _ _ => exact (configure_eq o _).2

/-! ### Two modes -/

/-- The second log lets through what the first one does, from the level `info` on. -/
structure WithoutDebug (log log' : PackageLog) : Prop where
  accepts_eq : ∀ r, log'.accepts r = (log.accepts r && decide (Level.info ≤ r.level))
  emission_eq : log'.emission = log.emission

theorem withoutDebug_setDebug (h : log.Follows) :
    WithoutDebug (log.setDebug true).1 (log.setDebug false).1 := by
  obtain ⟨-, hoff, hhandlers⟩ := setDebug_eq h false
  obtain ⟨-, hon, hhandlers'⟩ := setDebug_eq h true
  refine ⟨fun r => ?_, ?_⟩
  · have hlevels : Level.info ≤ r.level → Level.debug ≤ r.level := by
      intro hinfo
      exact Int.le_trans (by decide) hinfo
    rw [accepts, accepts, hoff, hon]
    by_cases hinfo : Level.info ≤ r.level
    · simp [levelFor, hinfo, hlevels hinfo]
    · simp [levelFor, hinfo]
  · funext r
    rw [emission, emission, hhandlers, hhandlers']

/-- Sending changes neither of the logs in what it lets through. -/
theorem WithoutDebug.of_sameSettings {on off : PackageLog} (h : WithoutDebug log log')
    (hon : SameSettings log on) (hoff : SameSettings log' off) : WithoutDebug on off := by
  refine ⟨fun r => ?_, ?_⟩
  · rw [hon.accepts_eq, hoff.accepts_eq]
    exact h.accepts_eq r
  · rw [hon.emission_eq, hoff.emission_eq]
    exact h.emission_eq

theorem WithoutDebug.sendAll_eq (h : WithoutDebug log log') (records : List LogRecord) :
    (sendAll records log').2 =
      (sendAll records log).2.filter fun e => Level.info ≤ e.record.level := by
  have haccepts : log'.accepts = fun r => decide (Level.info ≤ r.level) && log.accepts r := by
    funext r
    rw [h.accepts_eq, Bool.and_comm]
  rw [(PackageLog.sendAll_eq records log').2, (PackageLog.sendAll_eq records log).2, haccepts,
    h.emission_eq, List.filter_map, List.filter_filter]
  rfl

end FuzzyAlgebra.PackageLog

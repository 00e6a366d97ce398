import FuzzyAlgebra.ElementType
import FuzzyAlgebra.Proofs.Gate
import FuzzyAlgebra.Proofs.Logging.Context
import FuzzyAlgebra.Proofs.Logging.Emission

/-!
# The gate inside of a program

A program evaluates instructions one after the other, goes on after those that fail, and sends
records of its own in between. What it hears is what the package log lets through. Evaluation
neither looks at the log nor leaves a context behind, so that runs in and out of debug mode differ
in the records that are let through and in nothing else.
-/

namespace FuzzyAlgebra

namespace Gate

variable {τ α : Type}

theorem filterMap_record?_passEvent (contexts : ContextStack) (events : List Event) :
    (events.map (passEvent contexts)).filterMap Event.record? =
      (events.filterMap Event.record?).map contexts.enrich := by
  induction events with
  | nil => rfl
  | cons event rest ih =>
    cases event with
    | called key => exact ih
    | logged r => exact congrArg (contexts.enrich r :: ·) ih

/-- Whatever runs inside of a context, its records come out with what that context adds. -/
theorem records_inContext (c : LogContext) (act : Action (Gate τ) α) (g : Gate τ) :
    (inContext c act g).1.records =
      (act { g with contexts := g.contexts.push c }).1.records.map (g.contexts.push c).enrich :=
  filterMap_record?_passEvent _ _

variable [ClassHierarchy τ]

theorem operation_of_evaluate (i : Instruction τ) (g : Gate τ) {r : LogRecord}
    (h : r ∈ (evaluate i g).1.records) : r.operation = some "evaluate" := by
  rw [evaluate, records_inContext] at h
  obtain ⟨inner, -, rfl⟩ := List.mem_map.mp h
  rfl

end Gate

/-! ### Programs around the gate -/

/-- What a program does: it has an instruction evaluated, or sends a record of its own. -/
inductive HostStep (τ : Type) where
  | evaluate (i : Instruction τ)
  | send (level : Level) (channel : String) (message : Thunk String)

/-- A gate and the log of the package. -/
structure Host (τ : Type) where
  gate : Gate τ
  log : PackageLog

/-- What can be seen of a step: how it ended, the gate after it, the contexts that its records
passed, and what was heard. -/
structure HostReport (τ : Type) where
  result : Except Fault (Option (Evaluation τ))
  gate : Gate τ
  contexts : ContextStack
  heard : List Emission

namespace HostStep

variable {τ : Type}

/-- The contexts on the stack during the step. -/
def contexts (surrounding : ContextStack) : HostStep τ → ContextStack
  | evaluate _ => surrounding.push Gate.evaluating
  | send .. => surrounding

variable [ClassHierarchy τ]

def perform : HostStep τ → Action (Gate τ) (Option (Evaluation τ))
  | evaluate i => do
    let e ← Gate.evaluate i
    pure (some e)
  | send level channel message =>
    .inspect fun g =>
      ⟨.ok none, [Gate.passEvent g.contexts (.logged (.telling level channel message))]⟩

theorem contexts_perform (s : HostStep τ) (g : Gate τ) :
    (s.perform g).2.contexts = g.contexts := by
  cases s with
  | evaluate i =>
    have hstate : ((evaluate i).perform g).2 = (Gate.evaluate i g).2 := Action.state_map _ _ g
    rw [hstate, Gate.state_evaluate]
  | send level channel message => rfl

theorem records_evaluate (i : Instruction τ) (g : Gate τ) :
    ((evaluate i).perform g).1.records = (Gate.evaluate i g).1.records := by
  have hevents : ((evaluate i).perform g).1.events = (Gate.evaluate i g).1.events := by
    cases hresult : (Gate.evaluate i g).1.result with
    | ok e =>
      rw [perform, Action.bind_of_ok hresult]
      exact List.append_nil _
    | error e => rw [perform, Action.bind_of_error hresult]
  exact congrArg (List.filterMap Event.record?) hevents

end HostStep

namespace HostReport

variable {τ : Type}

/-- The step left the surrounding contexts as they were. What was heard of an evaluation tells that
operation, and what was heard in between tells the surrounding one, if there is one. -/
def Belongs (surrounding : ContextStack) (s : HostStep τ) (report : HostReport τ) : Prop :=
  report.gate.contexts = surrounding ∧ report.contexts = s.contexts surrounding ∧
    ∀ e ∈ report.heard,
      match s with
      | .evaluate _ =>
        e.record.operation = some "evaluate" ∧
          report.contexts.operationOf e.record = some (.text "evaluate")
      | .send .. => report.contexts.operationOf e.record = surrounding.operation?

/-- The report without the records below the level `info`. -/
def withoutDebug (report : HostReport τ) : HostReport τ :=
  { report with heard := report.heard.filter fun e => Level.info ≤ e.record.level }

end HostReport

namespace Host

variable {τ : Type} [ClassHierarchy τ]

def step (s : HostStep τ) (h : Host τ) : HostReport τ × Host τ :=
  let (t, gate) := s.perform h.gate
  let (log, heard) := PackageLog.sendAll t.records h.log
  (⟨t.result, gate, s.contexts h.gate.contexts, heard⟩, ⟨gate, log⟩)

/-- Takes the steps in order; none of them ends the program. -/
def run : List (HostStep τ) → Host τ → List (HostReport τ) × Host τ
  | [], h => ([], h)
  | s :: rest, h =>
    let (report, h) := h.step s
    let (others, h) := run rest h
    (report :: others, h)

/-! ### One step -/

theorem log_step (s : HostStep τ) (h : Host τ) :
    h.log.SameSettings (h.step s).2.log ∧
      (h.step s).1.heard =
        ((s.perform h.gate).1.records.filter h.log.accepts).map h.log.emission :=
  PackageLog.sendAll_eq (s.perform h.gate).1.records h.log

theorem belongs_step (s : HostStep τ) (h : Host τ) :
    (h.step s).1.Belongs h.gate.contexts s := by
  refine ⟨s.contexts_perform h.gate, rfl, ?_⟩
  intro e he
  rw [(log_step s h).2] at he
  obtain ⟨r, hr, rfl⟩ := List.mem_map.mp he
  have hsent : r ∈ (s.perform h.gate).1.records := (List.mem_filter.mp hr).1
  cases s with
  | evaluate i =>
    rw [HostStep.records_evaluate] at hsent
    exact ⟨Gate.operation_of_evaluate i h.gate hsent, rfl⟩
  | send level channel message =>
    obtain rfl := List.mem_singleton.mp hsent
    exact ContextStack.operationOf_enrich _ rfl

/-- A step does the same in both modes, but for the records that are heard. -/
theorem step_withoutDebug (s : HostStep τ) (gate : Gate τ) {on off : PackageLog}
    (h : on.WithoutDebug off) :
    (step s ⟨gate, off⟩).1 = (step s ⟨gate, on⟩).1.withoutDebug ∧
      (step s ⟨gate, on⟩).2.log.WithoutDebug (step s ⟨gate, off⟩).2.log := by
  have hheard := h.sendAll_eq (s.perform gate).1.records
  refine ⟨?_, h.of_sameSettings (log_step s ⟨gate, on⟩).1 (log_step s ⟨gate, off⟩).1⟩
  exact congrArg (HostReport.mk _ _ _) hheard

/-! ### Whole runs -/

theorem belongs_run (steps : List (HostStep τ)) (h : Host τ) :
    List.Forall₂ (HostReport.Belongs h.gate.contexts) steps (run steps h).1 := by
  induction steps generalizing h with
  | nil => exact .nil
  | cons s rest ih =>
    have hfirst := belongs_step s h
    have hothers := ih (h.step s).2
    -- the others start in the contexts that this step was given
    have hcontexts : (h.step s).2.gate.contexts = h.gate.contexts := hfirst.1
    rw [hcontexts] at hothers
    exact .cons hfirst hothers

theorem run_withoutDebug (steps : List (HostStep τ)) (gate : Gate τ) {on off : PackageLog}
    (h : on.WithoutDebug off) :
    (run steps ⟨gate, off⟩).1 = (run steps ⟨gate, on⟩).1.map HostReport.withoutDebug := by
  induction steps generalizing gate on off with
  | nil => rfl
  | cons s rest ih =>
    obtain ⟨hreport, hlogs⟩ := step_withoutDebug s gate h
    -- both runs go on from one gate, and their logs are still those of the two modes
    have hrest : (run rest (step s ⟨gate, off⟩).2).1 =
        (run rest (step s ⟨gate, on⟩).2).1.map HostReport.withoutDebug :=
      ih (step s ⟨gate, on⟩).2.gate hlogs
    calc (run (s :: rest) ⟨gate, off⟩).1
        = (step s ⟨gate, off⟩).1 :: (run rest (step s ⟨gate, off⟩).2).1 := rfl
      _ = (run (s :: rest) ⟨gate, on⟩).1.map HostReport.withoutDebug := by rw [hreport, hrest]; rfl

end Host

end FuzzyAlgebra

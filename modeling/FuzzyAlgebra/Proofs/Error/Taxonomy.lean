import FuzzyAlgebra.Proofs.Error.Origin

/-!
# The taxonomy of errors

Every error of the library carries a code of the registry, and its kind is a function of that code.
This is seen at the causes of failure, of which there is one for each place where an error is made.
What is left are errors that came out of the parts that a program supplied, and these can be
anything.
-/

namespace FuzzyAlgebra

/-! ### Kinds of codes -/

namespace ErrorCode

def kind : ErrorCode → ErrorKind
  | valueOutOfRange => .outOfRange
  | valueNotNumeric => .validation
  | operatorMissingOperand => .missingOperand
  | operatorUnexpectedOperand => .unexpectedOperand
  | operatorThresholdOutOfRange => .outOfRange
  | operatorMissingThreshold => .outOfRange
  | operatorUnexpectedThreshold => .unexpectedOperand
  | operatorNotASet => .typeMismatch
  | operatorUnknown => .validation
  | typeMismatch => .typeMismatch
  | typeIncompatibleOperands => .typeMismatch
  | typeInvalidTag => .typeMismatch
  | scopeUndefinedVariable => .undefinedVariable
  | scopeCannotExitRoot => .cannotExitRoot
  | scopeInvalidName => .validation
  | evalUnknownInstruction => .invalidInstruction
  | mfInvalidParameterCount => .configuration
  | mfInvalidParameterOrder => .configuration
  | mfInvalidSigma => .configuration
  | mfUnknownType => .configuration
  | configEmptyDefinitions => .configuration
  | configFileNotFound => .configurationFile
  | configInvalidYaml => .invalidConfiguration
  | configValidationFailed => .invalidConfiguration
  | configLoadFailed => .configurationFile

def registry : List String := all.map text

/-- The code of the registry that is written like this. -/
def ofText? (s : String) : Option ErrorCode := all.find? fun code => code.text = s

theorem mem_all (code : ErrorCode) : code ∈ all := by
  cases code <;> simp [all]

theorem text_mem_registry (code : ErrorCode) : code.text ∈ registry :=
  List.mem_map_of_mem code.mem_all

theorem ofText?_text (code : ErrorCode) : ofText? code.text = some code := by
  have hall : ∀ code ∈ all, ofText? code.text = some code := by decide +kernel
  exact hall code code.mem_all

end ErrorCode

/-- The kind of the errors that carry a code. -/
def ErrorKind.ofCode? (s : String) : Option ErrorKind := (ErrorCode.ofText? s).map ErrorCode.kind

theorem Failure.kind_eq (f : Failure) : f.kind = f.code.kind := by
  cases f <;> rfl

/-- The report carries a code of the registry, and is of the kind of that code. -/
def Report.Registered (r : Report) : Prop :=
  ∃ code ∈ ErrorCode.registry, r.code = some code ∧ ErrorKind.ofCode? code = some r.kind

theorem Failure.registered_report (f : Failure) : f.report.Registered := by
  refine ⟨f.code.text, f.code.text_mem_registry, rfl, ?_⟩
  rw [ErrorKind.ofCode?, f.code.ofText?_text, Option.map_some]
  exact congrArg some f.kind_eq.symm

/-- What an error of the library or of a program says; a mishap is neither. -/
def Fault.report? : Fault → Option Report
  | failure f => some f.report
  | raised r => some r
  | mishap _ => none

/-! ### Calls of the library -/

def Traced.fault? {α : Type} (t : Traced α) : Option Fault :=
  match t.result with
  | .ok _ => none
  | .error e => some e

/-- The failure that ends a check. Places outside the schema are told in another way. -/
def Checked.fault? {α : Type} : Checked α → Option Fault
  | refused f => some (.failure f)
  | _ => none

/-- A call of an operation of the library, on any arguments. -/
inductive LibraryCall (τ : Type) where
  | degree (v : Value)
  | clamp (v : Value)
  | primitive (key : Nat) (function : FuzzySet.FunctionArgument) (tag : TagArgument τ)
    (name : Value)
  | combine (key : Nat) (first : Operand τ) (operator : Value) (second : Operand τ)
    (threshold name : Value)
  | membership (s : FuzzySet τ) (x : Value)
  | validateThreshold (op : Operator) (threshold : Value)
  | applyOperator (op : Operator) (a b threshold : Value)
  | operatorNamed (name : Value)
  | createShape (type parameters : Value)
  | shapeModel (kind : ShapeKind) (fields : List (Value × Value))
  | definitionsModel (document : Value)
  | load (document : Value)
  | loadFile (read : DocumentReader) (path : String) (file : FileState)
  | build (number : τ) (firstKey : Nat) (definitions : Definitions)
  | onStack (key : Nat) (op : ScopeOperation τ)
  | isDefined (name : Value)
  | block (key : Nat) (name : String) (body : Frame τ → Action (ScopeStack τ) Unit)
  | run (instructions : List (Instruction τ))

namespace LibraryCall

variable {τ : Type}

/-- The errors that come out of what the program supplied: a membership function that is called, or
the body of a block. -/
def Supplied (g : Gate τ) : LibraryCall τ → Report → Prop
  | membership s x => s.Raises x
  | onStack _ (.evaluate i) => i.Raises
  | run instructions => fun r => ∃ i ∈ instructions, i.Raises r
  | block key name body => fun r =>
    (body (.empty key name) (g.scopes.push (.empty key name))).1.result = .error (.raised r)
  | _ => fun _ => False

variable [ClassHierarchy τ]

/-- How the call fails in a state, if it does. -/
def fault? (g : Gate τ) : LibraryCall τ → Option Fault
  | degree v => (Traced.ofExcept (Degree.ofValue v)).fault?
  | clamp v => (Traced.ofExcept (Degree.clamp v)).fault?
  | primitive key function tag name => (FuzzySet.ofFunction key function tag name).fault?
  | combine key first operator second threshold name =>
    (FuzzySet.combine key first operator second threshold name).fault?
  | membership s x => (s.membership x).fault?
  | validateThreshold op threshold => (op.validateThreshold threshold).fault?
  | applyOperator op a b threshold => (op.apply a b threshold).fault?
  | operatorNamed name => (Traced.ofExcept (Operator.named name)).fault?
  | createShape type parameters => (Shape.create type parameters).fault?
  | shapeModel kind fields => (Definition.ofFields .lax kind fields).fault?
  | definitionsModel document => (Definitions.check .lax document).fault?
  | load document => (Definitions.load document).fault?
  | loadFile read path file => (Definitions.loadFile read path file).fault?
  | build number firstKey definitions => (Definitions.build number firstKey definitions).fault?
  | onStack key op => (op.perform key g).1.fault?
  | isDefined name => (g.scopes.isDefined name).fault?
  | block key name body => (ScopeStack.within key name body g.scopes).1.fault?
  | run instructions => (Gate.run instructions g).1.fault?

/-- The error that the call fails with, if it fails with one. -/
def error? (c : LibraryCall τ) (g : Gate τ) : Option Report := (c.fault? g).bind Fault.report?

end LibraryCall

/-! ### What a call fails with -/

theorem Traced.HandsOn.of_fault? {α : Type} {P : Report → Prop} {t : Traced α} (ht : t.HandsOn P)
    {r : Report} (h : t.fault? = some (.raised r)) : P r := by
  unfold fault? at h
  split at h
  · cases h
  · rename_i hresult
    cases h
    exact ht r hresult

theorem Checked.fault?_ne_raised {α : Type} (c : Checked α) (r : Report) :
    c.fault? ≠ some (.raised r) := by
  cases c <;> exact nofun

namespace ScopeOperation

variable {τ : Type} [ClassHierarchy τ]

theorem handsOn_perform (key : Nat) (op : ScopeOperation τ) (g : Gate τ) :
    (op.perform key g).1.HandsOn (LibraryCall.Supplied g (.onStack key op)) := by
  have hcall {P : Report → Prop} (c : ScopeCall τ) : (c.perform key).HandsOn P := by
    cases c with
    | enter name => exact (ScopeStack.handsOn_enter key name).map _
    | exit => exact ScopeStack.handsOn_exit.map _
    | assign name value declared => exact (ScopeStack.handsOn_assign name value declared).map _
  cases op with
  | call c => exact (Gate.handsOn_onScopes (hcall c)).map _ g
  | lookup name =>
    exact (Gate.handsOn_onScopes (Action.handsOn_inspect fun s => s.handsOn_lookup name)).map _ g
  | get name expected =>
    exact (Gate.handsOn_onScopes
      (Action.handsOn_inspect fun s => s.handsOn_get name expected)).map _ g
  | populate number firstKey definitions =>
    exact (Gate.handsOn_onScopes (Definitions.handsOn_populate number firstKey definitions)).map _ g
  | evaluate i => exact (Gate.handsOn_evaluate i).map _ g

end ScopeOperation

namespace LibraryCall

variable {τ : Type} [ClassHierarchy τ]

/-- Whatever the call is, an error of a program's own comes out of what the program supplied. -/
theorem supplied_of_raised {c : LibraryCall τ} {g : Gate τ} {r : Report}
    (h : c.fault? g = some (.raised r)) : c.Supplied g r := by
  cases c with
  | degree v => exact (Degree.handsOn_ofValue v).of_fault? h
  | clamp v => exact (Degree.handsOn_clamp v).of_fault? h
  | primitive key function tag name =>
    exact (FuzzySet.handsOn_ofFunction key function tag name).of_fault? h
  | combine key first operator second threshold name =>
    exact (FuzzySet.handsOn_combine key first operator second threshold name).of_fault? h
  | membership s x => exact (s.handsOn_membership x).of_fault? h
  | validateThreshold op threshold => exact (op.handsOn_validateThreshold threshold).of_fault? h
  | applyOperator op a b threshold => exact (op.handsOn_apply a b threshold).of_fault? h
  | operatorNamed name => exact (Operator.handsOn_named name).of_fault? h
  | createShape type parameters => exact (Shape.handsOn_create type parameters).of_fault? h
  | shapeModel kind fields => exact absurd h (Checked.fault?_ne_raised _ r)
  | definitionsModel document => exact absurd h (Checked.fault?_ne_raised _ r)
  | load document => exact (Definitions.handsOn_load document).of_fault? h
  | loadFile read path file => exact (Definitions.handsOn_loadFile read path file).of_fault? h
  | build number firstKey definitions =>
    exact (Definitions.handsOn_build number firstKey definitions).of_fault? h
  | onStack key op => exact (op.handsOn_perform key g).of_fault? h
  | isDefined name => exact (g.scopes.handsOn_isDefined name).of_fault? h
  | block key name body => exact (ScopeStack.handsOn_within key name body g.scopes).of_fault? h
  | run instructions => exact (Gate.handsOn_run instructions g).of_fault? h

/-- **A closed taxonomy of errors.** Whatever operation is called, on whatever arguments and in
whatever state, an error that it ends with carries a code of the registry and has the kind of that
code, unless it came out of a membership function or the body of a block. -/
theorem error_registered :
    (∀ (c : LibraryCall τ) (g : Gate τ) (r : Report), c.error? g = some r →
      c.Supplied g r ∨ r.Registered) ∧
    ErrorKind.ofCode? "SCOPE-UndefinedVariable" = some .undefinedVariable ∧
    ErrorKind.ofCode? "OPERATOR-ThresholdOutOfRange" = some .outOfRange ∧
    ErrorKind.ofCode? "VALUE-NotNumeric" = some .validation ∧
    ∀ code ∈ ErrorCode.registry,
      ("TYPE-".toList <+: code.toList → ErrorKind.ofCode? code = some .typeMismatch) ∧
      ("MF-".toList <+: code.toList → ErrorKind.ofCode? code = some .configuration) := by
  refine ⟨?_, by decide +kernel, by decide +kernel, by decide +kernel, by decide +kernel⟩
  intro c g r hr
  obtain ⟨e, he, hreport⟩ := Option.bind_eq_some_iff.mp hr
  cases e with
  | failure f =>
    cases hreport
    exact .inr f.registered_report
  | raised r' =>
    cases hreport
    exact .inl (supplied_of_raised he)
  | mishap m => cases hreport

/-- An unknown name on the empty stack. -/
theorem error_registered_of_unknown_name :
    let c : LibraryCall ElementType := .onStack 1 (.get (.text "cold") .absent)
    let r := (Failure.undefinedVariable (.text "cold") ["global"]).report
    c.error? .empty = some r ∧ (c.Supplied .empty r ∨ r.Registered) := by
  intro c r
  have herror : c.error? .empty = some r := rfl
  exact ⟨herror, error_registered.1 c .empty r herror⟩

end LibraryCall

end FuzzyAlgebra

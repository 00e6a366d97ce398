import FuzzyAlgebra.Definitions.File
import FuzzyAlgebra.Proofs.FuzzySet.Traversal
import FuzzyAlgebra.Proofs.Logging.CallLog
import FuzzyAlgebra.Proofs.Operator.Threshold
import FuzzyAlgebra.Proofs.Scope.Operation

/-!
# Where errors come from

An error of a program's own can only come out of a part that the program supplied: of a membership
function that was called, or of the body of a block. Every other operation fails by a failure of the
library or by a mishap. That is closed under sequencing, so each operation is shown to have it by
the operations that it is made of.
-/

namespace FuzzyAlgebra

/-! ### Computations that hand errors on -/

namespace Traced

variable {α β : Type} {P Q : Report → Prop} {t : Traced α}

/-- All errors of a program's own that the computation ends with are among the given ones. -/
def HandsOn (P : Report → Prop) (t : Traced α) : Prop :=
  ∀ r, t.result = .error (.raised r) → P r

theorem HandsOn.mono (ht : t.HandsOn P) (h : ∀ r, P r → Q r) : t.HandsOn Q := by
  intro r hr
  exact h r (ht r hr)

theorem handsOn_pure (a : α) : (pure a : Traced α).HandsOn P :=
  fun _ h => nomatch h

theorem handsOn_log (level : Level) (channel : String) (message : Thunk String) :
    (log level channel message).HandsOn P :=
  fun _ h => nomatch h

theorem handsOn_mishap (m : Mishap) : (mishap m : Traced α).HandsOn P :=
  fun _ h => nomatch h

theorem handsOn_fail (f : Failure) : (fail f : Traced α).HandsOn P :=
  fun _ h => nomatch h

theorem handsOn_failWith (level : Level) (channel : String) (message : Thunk String)
    (f : Failure) : (failWith level channel message f : Traced α).HandsOn P :=
  fun _ h => nomatch h

theorem handsOn_failQuoting (v : Value) (level : Level) (channel : String)
    (message : Thunk String) (f : Failure) :
    (failQuoting v level channel message f : Traced α).HandsOn P := by
  intro r hr
  rw [result_failQuoting] at hr
  split at hr <;> cases hr

theorem handsOn_logQuoting (vs : List Value) (level : Level) (channel : String)
    (message : Thunk String) : (logQuoting vs level channel message).HandsOn P := by
  intro r hr
  rw [result_logQuoting] at hr
  cases hr

theorem handsOn_ofMishap (r : Except Mishap α) : (ofMishap r).HandsOn P := by
  cases r <;> exact fun _ h => nomatch h

theorem HandsOn.bind {f : α → Traced β} (ht : t.HandsOn P) (hf : ∀ a, (f a).HandsOn P) :
    (t >>= f).HandsOn P := by
  intro r hr
  rcases result_bind_eq_error_iff.mp hr with hstopped | ⟨a, -, hrest⟩
  · exact ht r hstopped
  · exact hf a r hrest

end Traced

namespace Action

variable {σ α β : Type} {P Q : Report → Prop} {act : Action σ α}

def HandsOn (P : Report → Prop) (act : Action σ α) : Prop := ∀ s, (act s).1.HandsOn P

theorem HandsOn.mono (hact : act.HandsOn P) (h : ∀ r, P r → Q r) : act.HandsOn Q := by
  intro s
  exact (hact s).mono h

theorem handsOn_ofTraced {t : Traced α} (h : t.HandsOn P) :
    (ofTraced t : Action σ α).HandsOn P := fun _ => h

theorem handsOn_pure (a : α) : (pure a : Action σ α).HandsOn P :=
  fun _ _ h => nomatch h

theorem handsOn_inspect {f : σ → Traced α} (h : ∀ s, (f s).HandsOn P) : (inspect f).HandsOn P := h

theorem handsOn_read : (read : Action σ σ).HandsOn P :=
  fun _ _ h => nomatch h

theorem handsOn_write (s : σ) : (write s).HandsOn P :=
  fun _ _ h => nomatch h

theorem handsOn_modify (f : σ → σ) : (modify f).HandsOn P :=
  fun _ _ h => nomatch h

theorem HandsOn.bind {f : α → Action σ β} (hact : act.HandsOn P) (hf : ∀ a, (f a).HandsOn P) :
    (act >>= f).HandsOn P := by
  intro s r hr
  cases hresult : (act s).1.result with
  | ok a =>
    rw [result_bind_of_ok hresult] at hr
    exact hf a _ r hr
  | error e =>
    rw [bind_of_error hresult] at hr
    cases hr
    exact hact s r hresult

theorem HandsOn.map (hact : act.HandsOn P) (f : α → β) :
    (act >>= fun a => pure (f a)).HandsOn P :=
  hact.bind fun a => handsOn_pure (f a)

end Action

/-! ### Degrees and operators -/

section Degrees

variable {P : Report → Prop}

theorem Value.Refused.ne_raised {v : Value} {e : Fault} (h : v.Refused e) (r : Report) :
    e ≠ .raised r := by
  cases h <;> exact nofun

namespace Degree

theorem ofNumber_ne_raised (x : Binary64) (r : Report) : ofNumber x ≠ .error (.raised r) := by
  unfold ofNumber
  split <;> exact nofun

theorem handsOn_ofValue (v : Value) : (Traced.ofExcept (ofValue v)).HandsOn P := by
  intro r hr
  exact absurd rfl ((refused_of_ofValue hr).ne_raised r)

theorem handsOn_clampNumber (x : Binary64) : (Traced.ofExcept (clampNumber x)).HandsOn P := by
  intro r hr
  exact absurd hr (ofNumber_ne_raised _ r)

theorem handsOn_clamp (v : Value) : (Traced.ofExcept (clamp v)).HandsOn P := by
  intro r hr
  unfold clamp at hr
  cases hnumber : v.toBinary64 with
  | ok x =>
    rw [hnumber] at hr
    exact handsOn_clampNumber x r hr
  | error m =>
    rw [hnumber] at hr
    cases hr

end Degree

namespace Operator

theorem handsOn_ofValue (v : Value) : (Traced.ofExcept (ofValue v)).HandsOn P := by
  intro r hr
  unfold ofValue at hr
  split at hr
  · cases hr
  · split at hr
    · split at hr <;> cases hr
    · cases hr

theorem handsOn_named (v : Value) : (Traced.ofExcept (named v)).HandsOn P := by
  intro r hr
  unfold named at hr
  split at hr
  · split at hr <;> cases hr
  · cases hr

theorem handsOn_validateThreshold (op : Operator) (v : Value) :
    (op.validateThreshold v).HandsOn P := by
  intro r hr
  exact absurd rfl ((refused_of_validateThreshold hr).ne_raised r)

theorem handsOn_apply (op : Operator) (a b threshold : Value) :
    (op.apply a b threshold).HandsOn P := by
  have happlied : (apply.applyTo op a b threshold).HandsOn P := by
    refine (op.handsOn_validateThreshold threshold).bind fun cut => ?_
    refine (Traced.handsOn_ofMishap _).bind fun x => (Traced.handsOn_ofMishap _).bind fun y => ?_
    exact Degree.handsOn_clampNumber _
  unfold apply
  split
  · exact Traced.handsOn_fail _
  · exact happlied
  · exact happlied
  · exact Traced.handsOn_fail _

end Operator

end Degrees

/-! ### Building and querying sets -/

namespace FuzzySet

variable {τ : Type} {P : Report → Prop} {op : Operator}

/-- A membership function of the set raises an error of its own for the element. -/
def Raises (s : FuzzySet τ) (x : Value) (r : Report) : Prop :=
  ∃ label function, primitive label function ∈ s.leaves ∧ function.apply x = .error (.raised r)

theorem handsOn_leafMembership (label : Label τ) (function : MembershipFunction) (x : Value) :
    (leafMembership label function x).HandsOn fun r => function.apply x = .error (.raised r) := by
  refine Traced.HandsOn.bind (fun _ h => nomatch h) fun _ => ?_
  refine Traced.HandsOn.bind (fun r hr => hr) fun result => ?_
  -- the function has returned, so all that is left are checks of the library
  split
  · exact Traced.handsOn_pure _
  · split
    · exact Traced.handsOn_mishap _
    · exact Traced.handsOn_failWith _ _ _ _
  · rename_i e _ hrefused
    intro r hr
    cases hr
    exact absurd rfl ((Degree.refused_of_ofValue hrefused).ne_raised r)

theorem handsOn_membership (s : FuzzySet τ) (x : Value) :
    (s.membership x).HandsOn (s.Raises x) := by
  intro r hr
  obtain ⟨leaf, hleaf, herror⟩ := exists_leaf_of_error hr
  obtain ⟨label, function, rfl⟩ := exists_primitive_of_mem_leaves hleaf
  exact ⟨label, function, hleaf, handsOn_leafMembership label function x r herror⟩

theorem handsOn_validateTag (tag : TagArgument τ) (role : String) :
    (validateTag tag role).HandsOn P := by
  cases tag with
  | absent => exact Traced.handsOn_pure _
  | tag t => exact Traced.handsOn_pure _
  | other v => exact Traced.handsOn_failQuoting v _ _ _ _

theorem handsOn_ofFunction (key : Nat) (function : FunctionArgument) (tag : TagArgument τ)
    (name : Value) : (ofFunction key function tag name).HandsOn P := by
  have hmade : (makePrimitive key function tag name).HandsOn P := by
    cases function with
    | other typeName =>
      exact (Traced.handsOn_log _ _ _).bind fun _ => Traced.handsOn_mishap _
    | function f => exact (handsOn_validateTag tag _).bind fun _ => Traced.handsOn_pure _
  refine hmade.bind fun s => (Traced.handsOn_ofMishap _).bind fun label => ?_
  exact (Traced.handsOn_logQuoting _ _ _ _).bind fun _ => Traced.handsOn_pure _

theorem handsOn_operandSet (o : Operand τ) : (operandSet op o).HandsOn P := by
  cases o with
  | set s => exact Traced.handsOn_pure _
  | value v =>
    unfold operandSet
    split
    · exact Traced.handsOn_pure _
    · exact Traced.handsOn_pure _
    · exact Traced.handsOn_failQuoting _ _ _ _ _

theorem handsOn_present (found : Option (FuzzySet τ)) : (present found).HandsOn P := by
  cases found with
  | some s => exact Traced.handsOn_pure s
  | none => exact Traced.handsOn_mishap _

theorem handsOn_makeUnary (key : Nat) (name : Value) (hop : op.isBinary = false)
    (first second : Option (FuzzySet τ)) (threshold : Value) :
    (makeUnary key name op hop first second threshold).HandsOn P := by
  cases second with
  | some s => exact Traced.handsOn_failWith _ _ _ _
  | none =>
    refine (op.handsOn_validateThreshold threshold).bind fun cut => ?_
    exact (handsOn_present first).bind fun _ => Traced.handsOn_pure _

variable [ClassHierarchy τ]

theorem handsOn_makeBinary (key : Nat) (name : Value) (operation : BinaryOperation)
    (first second : Option (FuzzySet τ)) (threshold : Value) :
    (makeBinary key name operation first second threshold).HandsOn P := by
  have htypes (s t : Option τ) : (combinedType operation.operator s t).HandsOn P := by
    unfold combinedType
    split
    · exact Traced.handsOn_pure _
    · exact Traced.handsOn_failWith _ _ _ _
  cases second with
  | none => exact Traced.handsOn_failWith _ _ _ _
  | some s =>
    refine (operation.operator.handsOn_validateThreshold threshold).bind fun cut => ?_
    refine (handsOn_present first).bind fun s => ?_
    exact (htypes _ _).bind fun _ => Traced.handsOn_pure _

theorem handsOn_combine (key : Nat) (first : Operand τ) (operator : Value) (second : Operand τ)
    (threshold name : Value) : (combine key first operator second threshold name).HandsOn P := by
  have hmade : (makeComposite key operator first second threshold name).HandsOn P := by
    refine (Operator.handsOn_ofValue operator).bind fun op => ?_
    refine (handsOn_operandSet first).bind fun a => (handsOn_operandSet second).bind fun b => ?_
    split
    · exact handsOn_makeBinary _ _ _ _ _ _
    · exact handsOn_makeUnary _ _ _ _ _ _
  refine hmade.bind fun s => (Traced.handsOn_ofMishap _).bind fun label => ?_
  exact (Traced.handsOn_logQuoting _ _ _ _).bind fun _ => Traced.handsOn_pure _

end FuzzySet

/-! ### Shapes and definitions -/

namespace Shape

variable {P : Report → Prop}

theorem handsOn_create (type parameters : Value) : (create type parameters).HandsOn P := by
  have hsettle (r : Except Failure Shape) : (ofValues.settle r).HandsOn P := by
    cases r with
    | ok shape => exact Traced.handsOn_pure _
    | error f => exact Traced.handsOn_failWith _ _ _ _
  have hvalues (kind : ShapeKind) : (ofValues kind parameters).HandsOn P := by
    refine (Traced.handsOn_ofMishap _).bind fun values => ?_
    split
    · exact (Traced.handsOn_ofMishap _).bind fun numbers => hsettle _
    · exact hsettle _
  unfold create
  split
  · split
    · exact hvalues _
    · exact Traced.handsOn_failWith _ _ _ _
  · exact Traced.handsOn_mishap _

end Shape

namespace Definitions

variable {P : Report → Prop}

theorem handsOn_load (document : Value) : (load document).HandsOn P := by
  unfold load loadUnder
  split
  · exact Traced.handsOn_fail _
  · exact Traced.handsOn_failWith _ _ _ _
  · exact (Traced.handsOn_log _ _ _).bind fun _ => Traced.handsOn_pure _

theorem handsOn_loadFile (read : DocumentReader) (path : String) (file : FileState) :
    (loadFile read path file).HandsOn P := by
  have hdocument (document : Value) : (loadDocument path document).HandsOn P := by
    have hrest (document : Value) :
        (load document >>= fun ds =>
          Traced.log .info Channel.config ("Loaded " ++ toString ds.length
            ++ " fuzzy set definition(s) from " ++ path) >>= fun _ => pure ds).HandsOn P :=
      (handsOn_load document).bind fun ds =>
        (Traced.handsOn_log _ _ _).bind fun _ => Traced.handsOn_pure ds
    cases document with
    | absent =>
      exact (Traced.handsOn_log _ _ _).bind fun _ => (Traced.handsOn_pure _).bind hrest
    | _ => exact hrest _
  have hbytes (bytes : ByteArray) : (loadBytes read path bytes).HandsOn P := by
    unfold loadBytes
    split
    · exact hdocument _
    · exact Traced.handsOn_failWith _ _ _ _
    · exact Traced.handsOn_mishap _
  refine (Traced.handsOn_log _ _ _).bind fun _ => ?_
  cases file with
  | missing => exact Traced.handsOn_failWith _ _ _ _
  | unreadable => exact Traced.handsOn_failWith _ _ _ _
  | tooLong => exact Traced.handsOn_mishap _
  | unsearchable => exact Traced.handsOn_mishap _
  | content bytes => exact hbytes bytes

variable {τ : Type}

theorem handsOn_build (number : τ) (key : Nat) (ds : Definitions) :
    (build number key ds).HandsOn P := by
  induction ds generalizing key with
  | nil => exact Traced.handsOn_pure _
  | cons entry rest ih =>
    obtain ⟨name, d⟩ := entry
    have hone : (buildOne number key name d).HandsOn P :=
      (Shape.handsOn_create _ _).bind fun shape => FuzzySet.handsOn_ofFunction _ _ _ _
    exact hone.bind fun s => (ih _).bind fun others => Traced.handsOn_pure _

end Definitions

/-! ### The stack of frames -/

namespace ScopeStack

variable {τ : Type} {P : Report → Prop}

theorem handsOn_enter (key : Nat) (name : String) :
    (enter key name : Action (ScopeStack τ) (Frame τ)).HandsOn P := by
  refine (Action.handsOn_modify _).bind fun _ => Action.handsOn_read.bind fun s => ?_
  exact (Action.handsOn_ofTraced (Traced.handsOn_log _ _ _)).bind fun _ => Action.handsOn_pure _

theorem handsOn_exit : (exit : Action (ScopeStack τ) (Frame τ)).HandsOn P := by
  refine Action.handsOn_read.bind fun s => ?_
  cases s.inner with
  | nil => exact Action.handsOn_ofTraced (Traced.handsOn_failWith _ _ _ _)
  | cons f rest =>
    refine (Action.handsOn_write _).bind fun _ => ?_
    exact (Action.handsOn_ofTraced (Traced.handsOn_log _ _ _)).bind fun _ => Action.handsOn_pure _

theorem handsOn_isDefined (s : ScopeStack τ) (name : Value) : (s.isDefined name).HandsOn P :=
  (Traced.handsOn_ofMishap _).bind fun _ => Traced.handsOn_pure _

theorem handsOn_lookup (s : ScopeStack τ) (name : Value) : (s.lookup name).HandsOn P := by
  refine (Traced.handsOn_ofMishap _).bind fun text => ?_
  split
  · exact Traced.handsOn_pure _
  · exact Traced.handsOn_failQuoting _ _ _ _ _

variable [ClassHierarchy τ]

theorem handsOn_get (s : ScopeStack τ) (name : Value) (expected : TagArgument τ) :
    (s.get name expected).HandsOn P := by
  refine (s.handsOn_lookup name).bind fun b => ?_
  have haccepts : (b.accepts expected).HandsOn P :=
    (FuzzySet.handsOn_validateTag expected _).bind fun _ => Traced.handsOn_pure _
  refine haccepts.bind fun fits => ?_
  cases fits with
  | true => exact Traced.handsOn_pure _
  | false => exact Traced.handsOn_failQuoting _ _ _ _ _

theorem handsOn_checkBinding (name : Value) (value : Operand τ) (declared : TagArgument τ) :
    (checkBinding name value declared).HandsOn P := by
  have hname : (checkBinding.checkName name).HandsOn P := by
    unfold checkBinding.checkName
    split
    · split
      · exact Traced.handsOn_failQuoting _ _ _ _ _
      · exact Traced.handsOn_pure _
    · exact Traced.handsOn_failQuoting _ _ _ _ _
  have hset (n : String) : (checkBinding.checkSet n value).HandsOn P := by
    cases value with
    | set s => exact Traced.handsOn_pure s
    | value v => exact Traced.handsOn_failWith _ _ _ _
  refine hname.bind fun n => (hset n).bind fun s => ?_
  refine (FuzzySet.handsOn_validateTag declared _).bind fun tag => ?_
  split
  · exact Traced.handsOn_pure _
  · exact Traced.handsOn_failWith _ _ _ _

theorem handsOn_assign (name : Value) (value : Operand τ) (declared : TagArgument τ) :
    (assign name value declared).HandsOn P := by
  refine (Action.handsOn_ofTraced (handsOn_checkBinding name value declared)).bind fun b => ?_
  refine (Action.handsOn_modify _).bind fun _ => Action.handsOn_read.bind fun s => ?_
  exact Action.handsOn_ofTraced (Traced.handsOn_log _ _ _)

omit [ClassHierarchy τ] in
/-- What a block hands on comes out of its body, which runs in the frame that it entered. -/
theorem handsOn_within {α : Type} (key : Nat) (name : String)
    (body : Frame τ → Action (ScopeStack τ) α) (s : ScopeStack τ) :
    (within key name body s).1.HandsOn fun r =>
      (body (.empty key name) (s.push (.empty key name))).1.result = .error (.raised r) := by
  intro r hr
  obtain ⟨henter, hpush⟩ := enter_eq key name s
  obtain ⟨hresult, -⟩ := Action.bracket_of_ok henter body exit
  have hbracket := hresult.symm.trans hr
  rw [hpush] at hbracket
  cases hexit : (exit (body (.empty key name) (s.push (.empty key name))).2).1.result with
  | ok f =>
    rw [hexit] at hbracket
    exact hbracket
  | error e =>
    rw [hexit] at hbracket
    obtain rfl : e = .raised r := Except.error.inj hbracket
    have hnone : (exit : Action (ScopeStack τ) (Frame τ)).HandsOn fun _ => False := handsOn_exit
    exact (hnone _ r hexit).elim

end ScopeStack

namespace Definitions

variable {τ : Type} [ClassHierarchy τ] {P : Report → Prop}

theorem handsOn_populate (number : τ) (key : Nat) (ds : Definitions) :
    (populate number key ds : Action (ScopeStack τ) _).HandsOn P := by
  have hassign (sets : List (String × FuzzySet τ)) : (assignAll sets).HandsOn P := by
    induction sets with
    | nil => exact Action.handsOn_pure _
    | cons entry rest ih =>
      obtain ⟨name, s⟩ := entry
      exact (ScopeStack.handsOn_assign _ _ _).bind fun _ => ih
  intro s
  unfold populate
  intro r hr
  rw [(CallLog.around_eq _ _ _ _ _ _ _ _).1] at hr
  refine Action.HandsOn.bind (Action.handsOn_ofTraced (handsOn_build number key ds)) ?_ s r
    (CallLog.raised_of_leave hr)
  intro sets
  exact (hassign sets).bind fun _ => Action.handsOn_pure _

end Definitions

/-! ### Instructions -/

/-- A membership function of the set that the instruction tests raises the error. -/
def Instruction.Raises {τ : Type} : Instruction τ → Report → Prop
  | .test (.set s) x => s.Raises x
  | _ => fun _ => False

namespace Gate

variable {τ α : Type} {P : Report → Prop}

theorem handsOn_onScopes {act : Action (ScopeStack τ) α} (h : act.HandsOn P) :
    (onScopes act).HandsOn P := fun g => h g.scopes

theorem handsOn_inContext (c : LogContext) {act : Action (Gate τ) α} (h : act.HandsOn P) :
    (inContext c act).HandsOn P := fun g => h { g with contexts := g.contexts.push c }

theorem handsOn_testMembership (set : Operand τ) (x : Value) :
    (testMembership set x).HandsOn (Instruction.Raises (.test set x)) := by
  unfold testMembership testedSet
  cases set with
  | value v =>
    intro r hr
    cases hr
  | set s =>
    rw [pure_bind]
    refine (s.handsOn_membership x).bind fun d => (Traced.handsOn_ofMishap _).bind fun label => ?_
    exact (Traced.handsOn_logQuoting _ _ _ _).bind fun _ => Traced.handsOn_pure _

variable [ClassHierarchy τ]

theorem handsOn_perform (i : Instruction τ) : (perform i).HandsOn i.Raises := by
  cases i with
  | assign name set declared => exact (ScopeStack.handsOn_assign name set declared).map _
  | get name expected =>
    exact (Action.handsOn_inspect fun s => s.handsOn_get name expected).map _
  | test set x => exact (Action.handsOn_ofTraced (handsOn_testMembership set x)).map _
  | other v => exact Action.handsOn_ofTraced (Traced.handsOn_failQuoting v _ _ _ _)

theorem handsOn_evaluate (i : Instruction τ) : (evaluate i).HandsOn i.Raises :=
  handsOn_inContext evaluating ((handsOn_onScopes (handsOn_perform i)).map _)

theorem handsOn_run (instructions : List (Instruction τ)) :
    (run instructions).HandsOn fun r => ∃ i ∈ instructions, i.Raises r := by
  induction instructions with
  | nil => exact Action.handsOn_pure _
  | cons i rest ih =>
    have hfirst : (evaluate i).HandsOn fun r => ∃ j ∈ i :: rest, j.Raises r :=
      (handsOn_evaluate i).mono fun r hr => ⟨i, List.mem_cons_self, hr⟩
    have hrest : (run rest).HandsOn fun r => ∃ j ∈ i :: rest, j.Raises r := by
      refine ih.mono ?_
      rintro r ⟨j, hj, hr⟩
      exact ⟨j, List.mem_cons_of_mem _ hj, hr⟩
    exact hfirst.bind fun first => hrest.bind fun others => Action.handsOn_pure _

end Gate

end FuzzyAlgebra

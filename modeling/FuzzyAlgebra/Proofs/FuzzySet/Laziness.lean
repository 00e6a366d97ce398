import FuzzyAlgebra.FuzzySet.Combine
import FuzzyAlgebra.FuzzySet.Depth
import FuzzyAlgebra.Proofs.Trace
import FuzzyAlgebra.Scope.Stack

/-!
# Sets are evaluated by queries only

Building a set, binding it and looking it up call no membership function, also where they fail. Its
label, its written form and its depth come out of no computation that could: they stay the same when
every function of the graph is exchanged for another one that is written alike.
-/

namespace FuzzyAlgebra

open Traced

variable {τ : Type}

theorem quiet_validateTag (tag : TagArgument τ) (role : String) : (validateTag tag role).Quiet := by
  cases tag with
  | other v => exact quiet_failQuoting v _ _ _ _
  | _ => exact quiet_pure _

theorem Operator.quiet_validateThreshold (op : Operator) (threshold : Value) :
    (op.validateThreshold threshold).Quiet := by
  unfold Operator.validateThreshold
  split
  · split
    · exact quiet_failWith _ _ _ _
    · split
      · exact quiet_pure _
      · exact quiet_failQuoting _ _ _ _ _
      · exact quiet_stop _
  · split
    · exact quiet_pure _
    · exact quiet_failQuoting _ _ _ _ _

namespace FuzzySet

section Building

theorem quiet_makePrimitive (key : Nat) (function : FunctionArgument) (tag : TagArgument τ)
    (name : Value) : (makePrimitive key function tag name).Quiet := by
  cases function with
  | function f => exact (quiet_validateTag _ _).bind fun _ => quiet_pure _
  | other typeName => exact (quiet_log _ _ _).bind fun _ => quiet_mishap _

theorem quiet_ofFunction (key : Nat) (function : FunctionArgument) (tag : TagArgument τ)
    (name : Value) : (ofFunction key function tag name).Quiet :=
  (quiet_makePrimitive key function tag name).bind fun _ =>
    (quiet_ofMishap _).bind fun _ => (quiet_logQuoting _ _ _ _).bind fun _ => quiet_pure _

theorem quiet_operandSet (op : Operator) (o : Operand τ) : (operandSet op o).Quiet := by
  unfold operandSet
  split
  · exact quiet_pure _
  · exact quiet_pure _
  · exact quiet_failQuoting _ _ _ _ _

theorem quiet_present (s : Option (FuzzySet τ)) : (present s).Quiet := by
  cases s <;> rfl

theorem quiet_makeUnary (key : Nat) (name : Value) (op : Operator) (hop : op.isBinary = false)
    (first second : Option (FuzzySet τ)) (threshold : Value) :
    (makeUnary key name op hop first second threshold).Quiet := by
  cases second with
  | none =>
    exact (Operator.quiet_validateThreshold _ _).bind fun _ => (quiet_present _).bind fun _ =>
      quiet_pure _
  | some second => exact quiet_failWith _ _ _ _

variable [ClassHierarchy τ]

theorem quiet_combinedType (op : Operator) (first second : Option τ) :
    (combinedType op first second).Quiet := by
  unfold combinedType
  split
  · exact quiet_pure _
  · exact quiet_failWith _ _ _ _

theorem quiet_makeBinary (key : Nat) (name : Value) (operation : BinaryOperation)
    (first second : Option (FuzzySet τ)) (threshold : Value) :
    (makeBinary key name operation first second threshold).Quiet := by
  cases second with
  | none => exact quiet_failWith _ _ _ _
  | some second =>
    exact (Operator.quiet_validateThreshold _ _).bind fun _ => (quiet_present _).bind fun _ =>
      (quiet_combinedType _ _ _).bind fun _ => quiet_pure _

theorem quiet_makeComposite (key : Nat) (operator : Value) (first second : Operand τ)
    (threshold name : Value) :
    (makeComposite key operator first second threshold name).Quiet := by
  refine (quiet_ofExcept _).bind fun op => (quiet_operandSet _ _).bind fun first =>
    (quiet_operandSet _ _).bind fun second => ?_
  split
  · exact quiet_makeBinary _ _ _ _ _ _
  · exact quiet_makeUnary _ _ _ _ _ _ _

theorem quiet_combine (key : Nat) (first : Operand τ) (operator : Value) (second : Operand τ)
    (threshold name : Value) :
    (combine key first operator second threshold name).Quiet :=
  (quiet_makeComposite key operator first second threshold name).bind fun _ =>
    (quiet_ofMishap _).bind fun _ => (quiet_logQuoting _ _ _ _).bind fun _ => quiet_pure _

end Building

/-! ### Exchanged functions -/

/-- The graph with other functions at its leaves. -/
def withFunctions (g : Label τ → MembershipFunction → MembershipFunction) : FuzzySet τ → FuzzySet τ
  | primitive label function => primitive label (g label function)
  | unary label operation operand => unary label operation (operand.withFunctions g)
  | binary label operation first second =>
    binary label operation (first.withFunctions g) (second.withFunctions g)

section Exchange

variable (g : Label τ → MembershipFunction → MembershipFunction)

@[simp]
theorem label_withFunctions (s : FuzzySet τ) : (s.withFunctions g).label = s.label := by
  cases s <;> rfl

@[simp]
theorem key_withFunctions (s : FuzzySet τ) : (s.withFunctions g).key = s.key :=
  congrArg Label.key (label_withFunctions g s)

@[simp]
theorem operator?_withFunctions (s : FuzzySet τ) :
    (s.withFunctions g).operator? = s.operator? := by
  cases s <;> rfl

@[simp]
theorem operands_withFunctions (s : FuzzySet τ) :
    (s.withFunctions g).operands = s.operands.map (withFunctions g) := by
  cases s <;> rfl

@[simp]
theorem className_withFunctions (s : FuzzySet τ) :
    (s.withFunctions g).className = s.className := by
  cases s <;> rfl

theorem innerName_withFunctions (s : FuzzySet τ) :
    (s.withFunctions g).innerName = s.innerName := by
  rw [innerName, innerName, label_withFunctions, className_withFunctions]

theorem describe_withFunctions (s : FuzzySet τ) : (s.withFunctions g).describe = s.describe := by
  have hnames : (s.withFunctions g).operands.mapM innerName = s.operands.mapM innerName := by
    rw [operands_withFunctions, List.mapM_map]
    exact congrArg (s.operands.mapM ·) (funext (innerName_withFunctions g))
  unfold describe
  rw [label_withFunctions, operator?_withFunctions, className_withFunctions, hnames]

theorem display_withFunctions (hg : ∀ label f, (g label f).display = f.display)
    (s : FuzzySet τ) : (s.withFunctions g).display = s.display := by
  induction s with
  | primitive label function =>
    rw [withFunctions, display, display, hg]
  | unary label operation operand ih =>
    rw [withFunctions, display, display, ih]
  | binary label operation first second ihfirst ihsecond =>
    rw [withFunctions, display, display, ihfirst, ihsecond]

end Exchange

end FuzzySet

namespace HeightWalk

variable (g : Label τ → MembershipFunction → MembershipFunction)

def exchanged (pending : List (FuzzySet τ × Bool)) : List (FuzzySet τ × Bool) :=
  pending.map fun p => (p.1.withFunctions g, p.2)

theorem unknownOperands_withFunctions (heights : Std.HashMap Nat Nat) (s : FuzzySet τ) :
    unknownOperands heights (s.withFunctions g) = exchanged g (unknownOperands heights s) := by
  unfold unknownOperands exchanged
  rw [FuzzySet.operands_withFunctions, List.filter_map, ← List.map_reverse, List.map_map,
    List.map_map]
  have hkey : (fun o : FuzzySet τ => !heights.contains o.key) ∘ FuzzySet.withFunctions g =
      fun o => !heights.contains o.key :=
    funext fun o => by simp
  rw [hkey]
  rfl

theorem heightOver_withFunctions (heights : Std.HashMap Nat Nat) (s : FuzzySet τ) :
    heightOver heights (s.withFunctions g) = heightOver heights s := by
  unfold heightOver
  rw [FuzzySet.operands_withFunctions, List.map_map]
  congr 2
  exact congrArg (s.operands.map ·) (funext fun o => by simp)

theorem visit_withFunctions (s : FuzzySet τ) (expanded : Bool)
    (rest : List (FuzzySet τ × Bool)) (heights : Std.HashMap Nat Nat) :
    visit (s.withFunctions g) expanded (exchanged g rest) heights =
      ⟨exchanged g (visit s expanded rest heights).pending,
        (visit s expanded rest heights).heights⟩ := by
  unfold visit
  rw [FuzzySet.key_withFunctions, heightOver_withFunctions, unknownOperands_withFunctions,
    FuzzySet.operands_withFunctions, List.isEmpty_map]
  split
  · rfl
  · split
    · rfl
    · rw [exchanged, exchanged, exchanged, List.map_append]
      rfl

theorem settle_exchanged (pending : List (FuzzySet τ × Bool)) (heights : Std.HashMap Nat Nat) :
    settle (exchanged g pending) heights = settle pending heights := by
  induction pending, heights using settle.induct with
  | case1 heights => rfl
  | case2 heights s expanded rest next ih =>
    have hcons : exchanged g ((s, expanded) :: rest) =
        (s.withFunctions g, expanded) :: exchanged g rest := rfl
    rw [hcons, settle, settle, visit_withFunctions]
    exact ih

end HeightWalk

namespace FuzzySet

theorem depth_withFunctions (g : Label τ → MembershipFunction → MembershipFunction)
    (s : FuzzySet τ) : (s.withFunctions g).depth = s.depth := by
  unfold depth
  rw [key_withFunctions]
  exact congrArg (fun heights => heights.getD s.key 0)
    (HeightWalk.settle_exchanged g [(s, false)] ∅)

end FuzzySet

namespace ScopeStack

theorem quiet_lookup (s : ScopeStack τ) (name : Value) : (s.lookup name).Quiet := by
  refine (quiet_ofMishap _).bind fun text => ?_
  split
  · exact quiet_pure _
  · exact quiet_failQuoting _ _ _ _ _

variable [ClassHierarchy τ]

theorem quiet_get (s : ScopeStack τ) (name : Value) (expected : TagArgument τ) :
    (s.get name expected).Quiet := by
  refine (quiet_lookup s name).bind fun b => ?_
  have haccepts : (b.accepts expected).Quiet :=
    (quiet_validateTag _ _).bind fun _ => quiet_pure _
  refine haccepts.bind fun fits => ?_
  split
  · exact quiet_pure _
  · exact quiet_failQuoting _ _ _ _ _

theorem quiet_checkBinding (name : Value) (value : Operand τ) (declared : TagArgument τ) :
    (checkBinding name value declared).Quiet := by
  have hname : (checkBinding.checkName name).Quiet := by
    unfold checkBinding.checkName
    split
    · split
      · exact quiet_failQuoting _ _ _ _ _
      · exact quiet_pure _
    · exact quiet_failQuoting _ _ _ _ _
  refine hname.bind fun n => ?_
  have hset : (checkBinding.checkSet n value).Quiet := by
    cases value
    · exact quiet_pure _
    · exact quiet_failWith _ _ _ _
  refine hset.bind fun set => (quiet_validateTag _ _).bind fun tag => ?_
  split
  · exact quiet_pure _
  · exact quiet_failWith _ _ _ _

theorem quiet_assign (name : Value) (value : Operand τ) (declared : TagArgument τ)
    (s : ScopeStack τ) : (assign name value declared s).1.Quiet := by
  refine Action.quiet_bind (quiet_checkBinding name value declared) fun b s => ?_
  refine Action.quiet_bind rfl fun _ s => ?_
  exact Action.quiet_bind rfl fun _ s => rfl

end ScopeStack

end FuzzyAlgebra

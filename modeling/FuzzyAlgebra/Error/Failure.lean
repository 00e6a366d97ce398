import FuzzyAlgebra.Error.Report

/-!
# Failures

Every way in which an operation of this library can fail, as a cause, and the report of each cause.
-/

namespace FuzzyAlgebra

/-- The shapes that a membership function can have by name. -/
inductive ShapeKind where
  | triangular
  | trapezoidal
  | gaussian
  deriving DecidableEq, Repr

namespace ShapeKind

def all : List ShapeKind := [triangular, trapezoidal, gaussian]

def label : ShapeKind → String
  | triangular => "triangular"
  | trapezoidal => "trapezoidal"
  | gaussian => "gaussian"

def title : ShapeKind → String
  | triangular => "Triangular"
  | trapezoidal => "Trapezoidal"
  | gaussian => "Gaussian"

def parameterNames : ShapeKind → List String
  | triangular => ["a", "b", "c"]
  | trapezoidal => ["a", "b", "c", "d"]
  | gaussian => ["μ", "σ"]

def parameterCount (kind : ShapeKind) : Nat := kind.parameterNames.length

def ofLabel? (label : String) : Option ShapeKind := all.find? fun kind => kind.label = label

end ShapeKind

/-- A cause of failure. -/
inductive Failure where
  /-- A number that is no degree. -/
  | notADegree (number : Binary64)
  /-- A value that is not a number where a degree is needed. -/
  | notNumeric (value : Value)
  /-- A membership function returned a number that is no degree. -/
  | leafOutOfRange (set result : String) (name : Value) (element : String) (number : Binary64)
  /-- A name that no operator has. -/
  | unknownOperator (name : String)
  /-- A binary operator was applied to one degree. -/
  | missingDegree (op : Operator)
  /-- A unary operator was applied to two degrees. -/
  | unexpectedDegree (op : Operator)
  /-- A threshold was given to an operator that takes none. -/
  | unexpectedThreshold (op : Operator) (threshold : Value)
  /-- A cut without its threshold. -/
  | missingThreshold (op : Operator)
  /-- A threshold that is no degree. -/
  | thresholdOutOfRange (op : Operator) (threshold : Value) (number : Binary64)
  /-- An operand that is no fuzzy set. -/
  | operandNotASet (op : Operator) (typeName : String)
  /-- A binary operator with one operand. -/
  | missingOperand (op : Operator)
  /-- A unary operator with two operands. -/
  | unexpectedOperand (op : Operator)
  /-- An element type that is no class. -/
  | invalidTag (role display : String)
  /-- Operands over element types that have nothing in common. -/
  | incompatibleOperands (op : Operator) (typeNames : List String)
  /-- A variable may hold fuzzy sets only. -/
  | boundNotASet (name typeName : String)
  /-- A declared element type that the set is not over. -/
  | declaredMismatch (name expected actual : String)
  /-- A requested element type that the variable is not over. -/
  | requestedMismatch (name : Value) (expected actual : String)
  /-- Only fuzzy sets can be tested for membership. -/
  | testedNotASet (typeName : String)
  /-- A name that no frame binds; the frames are listed from innermost to root. -/
  | undefinedVariable (name : Value) (frames : List String)
  /-- The root frame stays. -/
  | cannotExitRoot (depth : Nat)
  /-- A variable name that is empty or no text. -/
  | invalidName (name : Value)
  /-- A value that is no instruction. -/
  | unknownInstruction (typeName : String)
  /-- The wrong number of parameters for a shape. -/
  | parameterCount (kind : ShapeKind) (actual : Nat)
  /-- Parameters of a shape that are not in order. -/
  | parameterOrder (kind : ShapeKind) (parameters : List Binary64)
  /-- A width that is not positive. -/
  | invalidSigma (sigma : Binary64)
  /-- A shape of another name. -/
  | unknownShape (name : String)
  /-- Definitions that define nothing. -/
  | emptyDefinitions
  /-- Definitions that leave their schema. -/
  | invalidDefinitions (violations : List Violation)
  /-- No file at the path. -/
  | fileNotFound (path : String)
  /-- A file whose text is not well formed. -/
  | malformedFile (path : String)
  /-- A path that cannot be read. -/
  | unreadableFile (path : String)

namespace Failure

def unitInterval : String := "[0.0, 1.0]"

def kind : Failure → ErrorKind
  | notADegree _ => .outOfRange
  | notNumeric _ => .validation
  | leafOutOfRange .. => .outOfRange
  | unknownOperator _ => .validation
  | missingDegree _ => .missingOperand
  | unexpectedDegree _ => .unexpectedOperand
  | unexpectedThreshold .. => .unexpectedOperand
  | missingThreshold _ => .outOfRange
  | thresholdOutOfRange .. => .outOfRange
  | operandNotASet .. => .typeMismatch
  | missingOperand _ => .missingOperand
  | unexpectedOperand _ => .unexpectedOperand
  | invalidTag .. => .typeMismatch
  | incompatibleOperands .. => .typeMismatch
  | boundNotASet .. => .typeMismatch
  | declaredMismatch .. => .typeMismatch
  | requestedMismatch .. => .typeMismatch
  | testedNotASet _ => .typeMismatch
  | undefinedVariable .. => .undefinedVariable
  | cannotExitRoot _ => .cannotExitRoot
  | invalidName _ => .validation
  | unknownInstruction _ => .invalidInstruction
  | parameterCount .. => .configuration
  | parameterOrder .. => .configuration
  | invalidSigma _ => .configuration
  | unknownShape _ => .configuration
  | emptyDefinitions => .configuration
  | invalidDefinitions _ => .invalidConfiguration
  | fileNotFound _ => .configurationFile
  | malformedFile _ => .invalidConfiguration
  | unreadableFile _ => .configurationFile

def code : Failure → ErrorCode
  | notADegree _ => .valueOutOfRange
  | notNumeric _ => .valueNotNumeric
  | leafOutOfRange .. => .valueOutOfRange
  | unknownOperator _ => .operatorUnknown
  | missingDegree _ => .operatorMissingOperand
  | unexpectedDegree _ => .operatorUnexpectedOperand
  | unexpectedThreshold .. => .operatorUnexpectedThreshold
  | missingThreshold _ => .operatorMissingThreshold
  | thresholdOutOfRange .. => .operatorThresholdOutOfRange
  | operandNotASet .. => .operatorNotASet
  | missingOperand _ => .operatorMissingOperand
  | unexpectedOperand _ => .operatorUnexpectedOperand
  | invalidTag .. => .typeInvalidTag
  | incompatibleOperands .. => .typeIncompatibleOperands
  | boundNotASet .. => .typeMismatch
  | declaredMismatch .. => .typeMismatch
  | requestedMismatch .. => .typeMismatch
  | testedNotASet _ => .typeMismatch
  | undefinedVariable .. => .scopeUndefinedVariable
  | cannotExitRoot _ => .scopeCannotExitRoot
  | invalidName _ => .scopeInvalidName
  | unknownInstruction _ => .evalUnknownInstruction
  | parameterCount .. => .mfInvalidParameterCount
  | parameterOrder .. => .mfInvalidParameterOrder
  | invalidSigma _ => .mfInvalidSigma
  | unknownShape _ => .mfUnknownType
  | emptyDefinitions => .configEmptyDefinitions
  | invalidDefinitions _ => .configValidationFailed
  | fileNotFound _ => .configFileNotFound
  | malformedFile _ => .configInvalidYaml
  | unreadableFile _ => .configLoadFailed

def orderText (kind : ShapeKind) : String := " ≤ ".intercalate kind.parameterNames

def message : Failure → String
  | notADegree number => "Membership value " ++ number.render ++ " is outside " ++ unitInterval
  | notNumeric value => "Membership value must be a real number, got " ++ value.typeName
  | leafOutOfRange set result _ _ _ =>
    "Membership function of " ++ set ++ " returned " ++ result ++ ", outside " ++ unitInterval
  | unknownOperator name => "Unknown fuzzy set operator: " ++ name
  | missingDegree op => "Operator '" ++ op.label ++ "' needs two operand degrees"
  | unexpectedDegree op => "Operator '" ++ op.label ++ "' takes a single operand degree"
  | unexpectedThreshold op _ => "Operator '" ++ op.label ++ "' does not take a threshold"
  | missingThreshold _ => "Alpha-cut requires a threshold in " ++ unitInterval
  | thresholdOutOfRange _ threshold _ =>
    "Alpha-cut threshold " ++ threshold.plain ++ " is outside " ++ unitInterval
  | operandNotASet op typeName =>
    "Operands of '" ++ op.label ++ "' must be fuzzy sets, got " ++ typeName
  | missingOperand op => "Operator '" ++ op.label ++ "' requires two operands"
  | unexpectedOperand op => "Operator '" ++ op.label ++ "' takes exactly one operand"
  | invalidTag role display => role ++ " must be a class or None, got " ++ display
  | incompatibleOperands op typeNames =>
    "Cannot apply '" ++ op.label ++ "' to sets over different element types: "
      ++ ", ".intercalate typeNames
  | boundNotASet name typeName =>
    "Only fuzzy sets can be bound, got " ++ typeName ++ " for '" ++ name ++ "'"
  | declaredMismatch name expected actual =>
    "Set bound to '" ++ name ++ "' is over " ++ actual ++ ", not " ++ expected
  | requestedMismatch name expected actual =>
    "Variable '" ++ name.plain ++ "' is a fuzzy set over " ++ actual ++ ", not " ++ expected
  | testedNotASet typeName => "TestGate needs a fuzzy set, got " ++ typeName
  | undefinedVariable name _ => "Undefined variable '" ++ name.plain ++ "'"
  | cannotExitRoot _ => "Cannot exit the root scope"
  | invalidName name => "Variable name must be a non-empty string, got " ++ name.display
  | unknownInstruction typeName => "Unknown instruction type: " ++ typeName
  | parameterCount kind _ =>
    kind.title ++ " membership function requires exactly " ++ toString kind.parameterCount
      ++ " parameters [" ++ ", ".intercalate kind.parameterNames ++ "]"
  | parameterOrder kind _ =>
    kind.title ++ " membership function parameters must satisfy: " ++ orderText kind
  | invalidSigma _ => "Gaussian membership function sigma must be greater than 0"
  | unknownShape name => "Unknown membership function type: " ++ name
  | emptyDefinitions => "At least one fuzzy set must be defined"
  | invalidDefinitions _ => "Fuzzy set definitions failed validation"
  | fileNotFound path => "Fuzzy set definitions file not found: " ++ path
  | malformedFile _ => "Invalid YAML format in fuzzy set definitions file"
  | unreadableFile path => "Cannot read fuzzy set definitions file: " ++ path

def textDetail (s : String) : Detail := .value (.text s)

def textList (names : List String) : Detail := .value (.list (names.map .text))

def floatDetail (x : Binary64) : Detail := .value (.float x)

def natDetail (n : Nat) : Detail := .value (.int n)

def details : Failure → List (String × Detail)
  | notADegree number =>
    [("value", floatDetail number), ("min", floatDetail 0), ("max", floatDetail 1)]
  | notNumeric value =>
    [("value", textDetail value.display), ("type", textDetail value.typeName)]
  | leafOutOfRange _ _ name element number =>
    [("set", .value name), ("element", textDetail element), ("value", floatDetail number)]
  | unknownOperator name =>
    [("name", textDetail name), ("supported", textList (Operator.all.map Operator.label))]
  | missingDegree op => [("operator", textDetail op.label)]
  | unexpectedDegree op => [("operator", textDetail op.label)]
  | unexpectedThreshold op threshold =>
    [("operator", textDetail op.label), ("threshold", .value threshold)]
  | missingThreshold op => [("operator", textDetail op.label), ("threshold", .value .absent)]
  | thresholdOutOfRange op _ number =>
    [("operator", textDetail op.label), ("threshold", floatDetail number)]
  | operandNotASet op typeName =>
    [("operator", textDetail op.label), ("operand_type", textDetail typeName)]
  | missingOperand op => [("operator", textDetail op.label), ("arity", natDetail op.arity)]
  | unexpectedOperand op => [("operator", textDetail op.label), ("arity", natDetail op.arity)]
  | invalidTag role display => [("role", textDetail role), ("tag", textDetail display)]
  | incompatibleOperands op typeNames =>
    [("operator", textDetail op.label), ("element_types", textList typeNames)]
  | boundNotASet name typeName =>
    [("name", textDetail name), ("actual_type", textDetail typeName)]
  | declaredMismatch name expected actual =>
    [("name", textDetail name), ("expected_type", textDetail expected),
      ("actual_type", textDetail actual)]
  | requestedMismatch name expected actual =>
    [("name", .value name), ("expected_type", textDetail expected),
      ("actual_type", textDetail actual)]
  | testedNotASet typeName => [("actual_type", textDetail typeName)]
  | undefinedVariable name frames =>
    [("name", .value name), ("scopes_searched", textList frames)]
  | cannotExitRoot depth => [("depth", natDetail depth)]
  | invalidName name => [("name", textDetail name.display)]
  | unknownInstruction typeName =>
    [("instruction_type", textDetail typeName),
      ("supported", textList ["Assign", "Get", "TestGate"])]
  | parameterCount kind actual =>
    [("expected", natDetail kind.parameterCount), ("actual", natDetail actual)]
  | parameterOrder kind parameters =>
    [("parameters", .numbers (kind.parameterNames.zip parameters))]
  | invalidSigma sigma => [("sigma", floatDetail sigma)]
  | unknownShape name =>
    [("type", textDetail name), ("supported_types", textList (ShapeKind.all.map ShapeKind.label))]
  | emptyDefinitions => []
  | invalidDefinitions violations => [("validation_errors", .violations violations)]
  | fileNotFound path => [("path", textDetail path)]
  | malformedFile path => [("path", textDetail path)]
  | unreadableFile path => [("path", textDetail path)]

def suggestion? : Failure → Option String
  | missingThreshold _ => some "Pass threshold=<value between 0.0 and 1.0>"
  | cannotExitRoot _ => some "Every exit_scope() must match an earlier enter_scope()"
  | _ => none

def report (f : Failure) : Report :=
  ⟨f.kind, .text f.message, some f.code.text, f.details, f.suggestion?⟩

end Failure

/-- Why a computation stopped: a failure of this library, an error that a membership function
raised, or a mishap. -/
inductive Fault where
  | failure (f : Failure)
  | raised (r : Report)
  | mishap (m : Mishap)

namespace Fault

/-- The fault of a name and a message: an error of this library if one has that name. The message
about a missing key is the key as it is written. -/
def named (name : String) (message : Value) : Fault :=
  match ErrorKind.ofName? name with
  | some kind => raised (.bare kind message)
  | none =>
    let text := if name = "KeyError" then message.display else message.plain
    mishap (.named name (if message.isWritable then some text else none))

/-- What becomes of a fault while elements are taken one by one: the word for the end of the
elements would be taken for that end. -/
def duringWalk : Fault → Fault
  | mishap (.raised "StopIteration" _) =>
    mishap (.raised "RuntimeError" (some "generator raised StopIteration"))
  | e => e

def name : Fault → String
  | failure f => f.kind.name
  | raised r => r.kind.name
  | mishap m => m.name

/-- What a log says about a fault, if that can be written. -/
def text : Fault → Except Mishap String
  | failure f => f.report.text
  | raised r => r.text
  | mishap m =>
    match m.message? with
    | some message => .ok message
    | none => .error .malformed

end Fault

end FuzzyAlgebra

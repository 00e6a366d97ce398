import FuzzyAlgebra.Text.Order

/-!
# Kinds and codes of errors

The tree of error kinds, and the closed list of codes that the errors of this library carry.
-/

namespace FuzzyAlgebra

/-- A kind of error; each but the base has a more general one. -/
inductive ErrorKind where
  | base
  | validation
  | outOfRange
  | typeMismatch
  | operand
  | missingOperand
  | unexpectedOperand
  | scope
  | undefinedVariable
  | cannotExitRoot
  | evaluation
  | invalidInstruction
  | configuration
  | invalidConfiguration
  | configurationFile
  deriving DecidableEq, Repr

namespace ErrorKind

def all : List ErrorKind :=
  [base, validation, outOfRange, typeMismatch, operand, missingOperand, unexpectedOperand, scope,
    undefinedVariable, cannotExitRoot, evaluation, invalidInstruction, configuration,
    invalidConfiguration, configurationFile]

def name : ErrorKind → String
  | base => "FuzzyLangError"
  | validation => "ValidationError"
  | outOfRange => "OutOfRangeError"
  | typeMismatch => "TypeMismatchError"
  | operand => "OperandError"
  | missingOperand => "MissingOperandError"
  | unexpectedOperand => "UnexpectedOperandError"
  | scope => "ScopeError"
  | undefinedVariable => "UndefinedVariableError"
  | cannotExitRoot => "CannotExitRootScopeError"
  | evaluation => "EvaluationError"
  | invalidInstruction => "InvalidInstructionError"
  | configuration => "ConfigurationError"
  | invalidConfiguration => "InvalidConfigurationError"
  | configurationFile => "ConfigurationFileError"

def ofName? (name : String) : Option ErrorKind := all.find? fun kind => kind.name = name

def parent? : ErrorKind → Option ErrorKind
  | base => none
  | validation => some base
  | outOfRange => some validation
  | typeMismatch => some validation
  | operand => some base
  | missingOperand => some operand
  | unexpectedOperand => some operand
  | scope => some base
  | undefinedVariable => some scope
  | cannotExitRoot => some scope
  | evaluation => some base
  | invalidInstruction => some evaluation
  | configuration => some base
  | invalidConfiguration => some configuration
  | configurationFile => some configuration

def lineageFrom : Nat → ErrorKind → List ErrorKind
  | 0, _ => []
  | fuel + 1, kind =>
    match kind.parent? with
    | some parent => kind :: lineageFrom fuel parent
    | none => [kind]

def lineage (kind : ErrorKind) : List ErrorKind := lineageFrom all.length kind

/-- The names of the kinds that an error of this kind also is, sorted. -/
def generalizations (kind : ErrorKind) : List String :=
  Text.sortDistinct (kind.lineage.map name)

end ErrorKind

/-- A machine-readable code of an error. -/
inductive ErrorCode where
  | valueOutOfRange
  | valueNotNumeric
  | operatorMissingOperand
  | operatorUnexpectedOperand
  | operatorThresholdOutOfRange
  | operatorMissingThreshold
  | operatorUnexpectedThreshold
  | operatorNotASet
  | operatorUnknown
  | typeMismatch
  | typeIncompatibleOperands
  | typeInvalidTag
  | scopeUndefinedVariable
  | scopeCannotExitRoot
  | scopeInvalidName
  | evalUnknownInstruction
  | mfInvalidParameterCount
  | mfInvalidParameterOrder
  | mfInvalidSigma
  | mfUnknownType
  | configEmptyDefinitions
  | configFileNotFound
  | configInvalidYaml
  | configValidationFailed
  | configLoadFailed
  deriving DecidableEq, Repr

namespace ErrorCode

def all : List ErrorCode :=
  [valueOutOfRange, valueNotNumeric, operatorMissingOperand, operatorUnexpectedOperand,
    operatorThresholdOutOfRange, operatorMissingThreshold, operatorUnexpectedThreshold,
    operatorNotASet, operatorUnknown, typeMismatch, typeIncompatibleOperands, typeInvalidTag,
    scopeUndefinedVariable, scopeCannotExitRoot, scopeInvalidName, evalUnknownInstruction,
    mfInvalidParameterCount, mfInvalidParameterOrder, mfInvalidSigma, mfUnknownType,
    configEmptyDefinitions, configFileNotFound, configInvalidYaml, configValidationFailed,
    configLoadFailed]

def text : ErrorCode → String
  | valueOutOfRange => "VALUE-OutOfRange"
  | valueNotNumeric => "VALUE-NotNumeric"
  | operatorMissingOperand => "OPERATOR-MissingOperand"
  | operatorUnexpectedOperand => "OPERATOR-UnexpectedOperand"
  | operatorThresholdOutOfRange => "OPERATOR-ThresholdOutOfRange"
  | operatorMissingThreshold => "OPERATOR-MissingThreshold"
  | operatorUnexpectedThreshold => "OPERATOR-UnexpectedThreshold"
  | operatorNotASet => "OPERATOR-NotAFuzzySet"
  | operatorUnknown => "OPERATOR-Unknown"
  | typeMismatch => "TYPE-Mismatch"
  | typeIncompatibleOperands => "TYPE-IncompatibleOperands"
  | typeInvalidTag => "TYPE-InvalidTag"
  | scopeUndefinedVariable => "SCOPE-UndefinedVariable"
  | scopeCannotExitRoot => "SCOPE-CannotExitRoot"
  | scopeInvalidName => "SCOPE-InvalidName"
  | evalUnknownInstruction => "EVAL-UnknownInstruction"
  | mfInvalidParameterCount => "MF-InvalidParameterCount"
  | mfInvalidParameterOrder => "MF-InvalidParameterOrder"
  | mfInvalidSigma => "MF-InvalidSigma"
  | mfUnknownType => "MF-UnknownType"
  | configEmptyDefinitions => "CONFIG-EmptyDefinitions"
  | configFileNotFound => "CONFIG-FileNotFound"
  | configInvalidYaml => "CONFIG-InvalidYaml"
  | configValidationFailed => "CONFIG-ValidationFailed"
  | configLoadFailed => "CONFIG-LoadFailed"

def constantName : ErrorCode → String
  | valueOutOfRange => "VALUE_OUT_OF_RANGE"
  | valueNotNumeric => "VALUE_NOT_NUMERIC"
  | operatorMissingOperand => "OPERATOR_MISSING_OPERAND"
  | operatorUnexpectedOperand => "OPERATOR_UNEXPECTED_OPERAND"
  | operatorThresholdOutOfRange => "OPERATOR_THRESHOLD_OUT_OF_RANGE"
  | operatorMissingThreshold => "OPERATOR_MISSING_THRESHOLD"
  | operatorUnexpectedThreshold => "OPERATOR_UNEXPECTED_THRESHOLD"
  | operatorNotASet => "OPERATOR_NOT_A_SET"
  | operatorUnknown => "OPERATOR_UNKNOWN"
  | typeMismatch => "TYPE_MISMATCH"
  | typeIncompatibleOperands => "TYPE_INCOMPATIBLE_OPERANDS"
  | typeInvalidTag => "TYPE_INVALID_TAG"
  | scopeUndefinedVariable => "SCOPE_UNDEFINED_VARIABLE"
  | scopeCannotExitRoot => "SCOPE_CANNOT_EXIT_ROOT"
  | scopeInvalidName => "SCOPE_INVALID_NAME"
  | evalUnknownInstruction => "EVAL_UNKNOWN_INSTRUCTION"
  | mfInvalidParameterCount => "MF_INVALID_PARAMETER_COUNT"
  | mfInvalidParameterOrder => "MF_INVALID_PARAMETER_ORDER"
  | mfInvalidSigma => "MF_INVALID_SIGMA"
  | mfUnknownType => "MF_UNKNOWN_TYPE"
  | configEmptyDefinitions => "CONFIG_EMPTY_DEFINITIONS"
  | configFileNotFound => "CONFIG_FILE_NOT_FOUND"
  | configInvalidYaml => "CONFIG_INVALID_YAML"
  | configValidationFailed => "CONFIG_VALIDATION_FAILED"
  | configLoadFailed => "CONFIG_LOAD_FAILED"

end ErrorCode

end FuzzyAlgebra

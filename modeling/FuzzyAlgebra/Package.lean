/-!
# The package

Its name, its version, and the names that it offers.
-/

namespace FuzzyAlgebra.Package

def name : String := "fuzzylang"

def version : String := "0.3.0"

def publicNames : List String :=
  ["Assign", "CannotExitRootScopeError", "CompositeSet", "EvaluationGate", "EvaluationResult",
    "FuzzyLangError", "FuzzySet", "Get", "LogContext", "MembershipValue", "MissingOperandError",
    "Operator", "OutOfRangeError", "PrimitiveSet", "ScopeStack", "TestGate", "TypeMismatchError",
    "UndefinedVariableError", "UnexpectedOperandError", "__version__", "combine",
    "configure_logging", "get_logger", "is_debug_mode", "log_entry_exit", "primitive",
    "set_debug_mode", "with_context"]

end FuzzyAlgebra.Package

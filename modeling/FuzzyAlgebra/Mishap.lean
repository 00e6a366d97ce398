/-!
# Mishaps

Failures that are not about fuzzy sets: an operation met a value of a kind it cannot take, or a
number outside its range.
-/

namespace FuzzyAlgebra

/-- Why an operation could not be carried out on its values. -/
inductive Mishap where
  /-- A value of a kind that the operation does not take. -/
  | wrongType
  /-- A membership function was expected, and a value of the named type is none. -/
  | notCallable (typeName : String)
  /-- A value of the right kind with content that the operation does not take. -/
  | malformed
  /-- A number past the greatest floating-point number. -/
  | tooLarge
  /-- A sequence that does not fit into memory. -/
  | noMemory
  /-- An operation on decimals without a definite result. -/
  | indefinite
  /-- A decimal past the greatest one. -/
  | overflow
  /-- An operation that arrays do not have for their kinds of items. -/
  | notElementwise
  /-- A key that a table does not hold. -/
  | missingKey
  /-- A place past the end of a sequence. -/
  | outOfBounds
  /-- A value without the operation that was asked of it. -/
  | noSuchMember
  /-- A path that is longer than paths can be. -/
  | nameTooLong
  /-- A file where a directory was to be made. -/
  | alreadyThere
  /-- A place inside of a file. -/
  | insideFile
  /-- A directory where a file was to be opened. -/
  | isDirectory
  /-- A place that may not be looked into. -/
  | notPermitted
  /-- Bytes that are not text. -/
  | undecodable
  /-- Arguments that do not fit the parameters of a function; the message says why. -/
  | badCall (message : String)
  /-- Raised under a name of its own, with a message, if that can be written. -/
  | raised (name : String) (message : Option String)
  deriving DecidableEq, Repr

namespace Mishap

def name : Mishap → String
  | wrongType | notCallable _ | badCall _ => "TypeError"
  | malformed => "ValueError"
  | tooLarge => "OverflowError"
  | noMemory => "MemoryError"
  | indefinite => "InvalidOperation"
  | overflow => "Overflow"
  | notElementwise => "UFuncTypeError"
  | missingKey => "KeyError"
  | outOfBounds => "IndexError"
  | noSuchMember => "AttributeError"
  | nameTooLong => "OSError"
  | alreadyThere => "FileExistsError"
  | insideFile => "NotADirectoryError"
  | isDirectory => "IsADirectoryError"
  | notPermitted => "PermissionError"
  | undecodable => "UnicodeDecodeError"
  | raised name _ => name

/-- How many arguments a kind of mishap needs, for those that need more than a message. -/
def arguments? (name : String) : Option Nat :=
  if name = "UnicodeDecodeError" ∨ name = "UnicodeEncodeError" then some 5
  else if name = "UnicodeTranslateError" then some 4
  else none

/-- The mishap of a name and a message. Two names stand for a third one, and kinds that need more
than a message cannot be made from one. -/
def named (name : String) (message : Option String) : Mishap :=
  match arguments? name with
  | some count => badCall ("function takes exactly " ++ toString count ++ " arguments (1 given)")
  | none =>
    raised (if name = "IOError" ∨ name = "EnvironmentError" then "OSError" else name) message

/-- What is said about a mishap, if that can be written. -/
def message? : Mishap → Option String
  | notCallable typeName => some ("Membership function must be callable, got " ++ typeName)
  | badCall message => some message
  | raised _ message => message
  | _ => some ""

end Mishap

end FuzzyAlgebra

import FuzzyAlgebra.Error.Report
import FuzzyAlgebra.Value.Conversion

/-!
# Custom errors

An error that a program makes for itself, of a kind of this library but from values of any kind.
-/

namespace FuzzyAlgebra

/-- What a custom error says. -/
structure CustomError where
  kind : ErrorKind
  message : Value
  code : Value
  details : Value
  suggestion : Value

namespace CustomError

/-- The error as it is kept: details that count as false are no details. -/
def make (kind : ErrorKind) (message code details suggestion : Value) :
    Except Mishap CustomError := do
  pure ⟨kind, message, code, if ← details.truth then details else .dict [], suggestion⟩

/-- The message after the code, if that counts as true; alone it has to be a text. -/
def text (e : CustomError) : Except Mishap String := do
  if ← e.code.truth then
    if e.code.isWritable && e.message.isWritable then
      .ok ("[" ++ e.code.plain ++ "] " ++ e.message.plain)
    else .error .malformed
  else
    match e.message with
    | .text s => .ok s
    | _ => .error .wrongType

end CustomError

end FuzzyAlgebra

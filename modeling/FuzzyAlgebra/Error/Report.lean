import FuzzyAlgebra.Error.Kind
import FuzzyAlgebra.Mishap
import FuzzyAlgebra.Value.Printer

/-!
# Error reports

What an error says: its kind, a message, and optionally a code, details and a suggestion.
-/

namespace FuzzyAlgebra

/-- The way in which a definition leaves its schema. -/
inductive ViolationKind where
  | notDict
  | keyNotText
  | notUnicode
  | definitionNotDict
  | typeMissing
  | typeUnknown
  | fieldMissing
  | notList
  | tooLong
  | tooShort
  | notNumber
  | notNumberText
  | literal
  deriving DecidableEq, Repr

namespace ViolationKind

def label : ViolationKind → String
  | notDict => "dict_type"
  | keyNotText => "string_type"
  | notUnicode => "string_unicode"
  | definitionNotDict => "model_attributes_type"
  | typeMissing => "union_tag_not_found"
  | typeUnknown => "union_tag_invalid"
  | fieldMissing => "missing"
  | notList => "list_type"
  | tooLong => "too_long"
  | tooShort => "too_short"
  | notNumber => "float_type"
  | notNumberText => "float_parsing"
  | literal => "literal_error"

end ViolationKind

/-- A step from a document to a place inside it. -/
inductive PathStep where
  | key (name : String)
  | index (i : Int)
  deriving DecidableEq, Repr

/-- A place where a document leaves its schema. -/
structure Violation where
  kind : ViolationKind
  location : List PathStep
  deriving DecidableEq, Repr

/-- A piece of information attached to an error. -/
inductive Detail where
  | value (v : Value)
  | numbers (fields : List (String × Binary64))
  | violations (list : List Violation)

/-- What an error says. The errors of this library have texts as their messages; those that a program
raises itself can have values of any kind. -/
structure Report where
  kind : ErrorKind
  message : Value
  code : Option String
  details : List (String × Detail)
  suggestion : Option String

namespace Report

def bare (kind : ErrorKind) (message : Value) : Report := ⟨kind, message, none, [], none⟩

/-- The message after the code, if there is one; alone it has to be a text. -/
def text (r : Report) : Except Mishap String :=
  match r.code.filter (· ≠ ""), r.message with
  | some code, message =>
    if message.isWritable then .ok ("[" ++ code ++ "] " ++ message.plain) else .error .malformed
  | none, .text message => .ok message
  | none, _ => .error .wrongType

end Report

end FuzzyAlgebra

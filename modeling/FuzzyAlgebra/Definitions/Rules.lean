import FuzzyAlgebra.Binary64.Reading
import FuzzyAlgebra.Error.Failure
import FuzzyAlgebra.Value.Order

/-!
# Rules of a schema

Which values pass for a number, for a list or for a name, and how the steps of a path are told, is
for the library to say that checks documents. The rules here are those of its lax mode.
-/

namespace FuzzyAlgebra

/-- What is decided about single values where a document is checked. -/
structure SchemaRules where
  /-- The number that a value passes for. -/
  number : Value → Except ViolationKind Binary64
  /-- The items of a value that passes for a list. -/
  items? : Value → Option (List Value)
  /-- The name that a value passes for. -/
  name : Value → Except ViolationKind String
  /-- Whether a value that is no dictionary has fields of its own, so that what a definition misses
  in it is its type only. -/
  hasFields : Value → Bool
  /-- A key as a step of a path. -/
  step : Value → PathStep

namespace SchemaRules

namespace Lax

def numberOfText (s : String) : Except ViolationKind Binary64 :=
  match Binary64.ofSchemaText? s with
  | some x => .ok x
  | none => .error .notNumberText

/-- A number, or the text of one, also as bytes. -/
def number (v : Value) : Except ViolationKind Binary64 :=
  match v with
  | .text s => if Text.hasSurrogate s then .error .notUnicode else numberOfText s
  | .bytes content =>
    match String.fromUTF8? ⟨content.toArray⟩ with
    | some s => numberOfText s
    | none => .error .notNumberText
  | v =>
    match v.toBinary64 with
    | .ok x => .ok x
    | .error _ => .error .notNumber

def items? : Value → Option (List Value)
  | .list items => some items
  | .tuple items => some items
  | .set items => some items
  | _ => none

/-- A text, also as bytes, or an operator. -/
def name (v : Value) : Except ViolationKind String :=
  match v with
  | .text name => .ok name
  | .bytes content =>
    match String.fromUTF8? ⟨content.toArray⟩ with
    | some name => .ok name
    | none => .error .notUnicode
  | .operator op => .ok (Value.tuple [.text op.label, .int op.arity]).display
  | _ => .error .keyNotText

def hasFields : Value → Bool
  | .degree _ => true
  | .fraction .. => true
  | .decimal _ => true
  | .scalar _ => true
  | .array .. => true
  | .operator _ => true
  | .generic _ => true
  | .type t => t.isAbstract
  | .object kind _ _ => kind ≠ "date" && kind ≠ "datetime"
  | _ => false

def writtenStep (key : Value) : PathStep :=
  if key.isWritable then .key key.display
  else .key ("<unprintable " ++ key.typeName ++ " object>")

/-- Whole numbers of 64 bits are indices, and other keys are written, without the surrogates of a
text. -/
def step (key : Value) : PathStep :=
  match key with
  | .text name => .key (Text.withoutSurrogates name)
  | .int n => if -(2 ^ 63) ≤ n ∧ n < 2 ^ 63 then .index n else writtenStep key
  | .bool b => .index (if b then 1 else 0)
  | .scalar (.int64 n) => .index n
  | key => writtenStep key

end Lax

def lax : SchemaRules where
  number := Lax.number
  items? := Lax.items?
  name := Lax.name
  hasFields := Lax.hasFields
  step := Lax.step

end SchemaRules

end FuzzyAlgebra

import FuzzyAlgebra.Definitions.Rules

/-!
# The schema of definitions

A definition names a shape and lists its parameters; definitions are a dictionary of them by
variable name. Checking collects every place where a document leaves the schema. A definition inside
the schema whose parameters are out of order ends the check at once, whatever came before it.
-/

namespace FuzzyAlgebra

/-- A shape and its parameters. -/
structure Definition where
  kind : ShapeKind
  parameters : List Binary64

abbrev Definitions : Type := List (String × Definition)

/-- The outcome of a check: a value, the places where it leaves the schema, or a failure that ends
the whole check. -/
inductive Checked (α : Type) where
  | valid (a : α)
  | invalid (violations : List Violation)
  | refused (f : Failure)

namespace Checked

variable {α β γ : Type}

/-- Two checks, one after the other. A failure of either ends both, and violations of both are
collected. -/
def zipWith (f : α → β → γ) : Checked α → Checked β → Checked γ
  | refused e, _ => refused e
  | _, refused e => refused e
  | invalid vs, invalid ws => invalid (vs ++ ws)
  | invalid vs, valid _ => invalid vs
  | valid _, invalid ws => invalid ws
  | valid a, valid b => valid (f a b)

def map (f : α → β) : Checked α → Checked β
  | valid a => valid (f a)
  | invalid vs => invalid vs
  | refused e => refused e

end Checked

namespace Definition

variable (rules : SchemaRules)

def modelName (kind : ShapeKind) : String := kind.title ++ "MFConfig"

def display (d : Definition) : String :=
  modelName d.kind ++ "(type='" ++ d.kind.label ++ "', parameters="
    ++ (Value.list (d.parameters.map .float)).display ++ ")"

/-- The parameters that are numbers, and the places of the others. -/
def parametersFrom (place : List PathStep) : Nat → List Value → List Binary64 × List Violation
  | _, [] => ([], [])
  | i, v :: rest =>
    let (numbers, violations) := parametersFrom place (i + 1) rest
    match rules.number v with
    | .ok x => (x :: numbers, violations)
    | .error kind => (numbers, ⟨kind, place ++ [.index i]⟩ :: violations)

/-- The parameters of a shape inside the schema: a list of as many numbers as it takes. A list that
is too long is not looked into, and one that is too short only if all its items are numbers. -/
def parameterList (kind : ShapeKind) (place : List PathStep) (given : Option Value) :
    Except (List Violation) (List Binary64) :=
  match given with
  | none => .error [⟨.fieldMissing, place⟩]
  | some v =>
    match rules.items? v with
    | none => .error [⟨.notList, place⟩]
    | some items =>
      if kind.parameterCount < items.length then .error [⟨.tooLong, place⟩]
      else
        match parametersFrom rules place 0 items with
        | (numbers, []) =>
          if items.length < kind.parameterCount then .error [⟨.tooShort, place⟩] else .ok numbers
        | (_, violations) => .error violations

/-- Whether no number of the list is less than the one before it. -/
def nondecreasing : List Binary64 → Bool
  | x :: y :: rest => decide (x ≤ y) && nondecreasing (y :: rest)
  | _ => true

/-- What is wrong with parameters inside the schema: ramps have to be in order, and a bell curve has
to have a width. -/
def disorder? (kind : ShapeKind) (parameters : List Binary64) : Option Failure :=
  match kind, parameters with
  | .gaussian, [_, sigma] => if sigma ≤ 0 then some (.invalidSigma sigma) else none
  | kind, parameters =>
    if nondecreasing parameters then none else some (.parameterOrder kind parameters)

def checkParameters (kind : ShapeKind) (place : List PathStep) (given : Option Value) :
    Checked (List Binary64) :=
  match parameterList rules kind (place ++ [.key "parameters"]) given with
  | .error violations => .invalid violations
  | .ok parameters =>
    match disorder? kind parameters with
    | some f => .refused f
    | none => .valid parameters

/-- The type of a definition whose kind is known; it may be left out but not be another. -/
def checkType (kind : ShapeKind) (given : Option Value) : Checked ShapeKind :=
  match given with
  | none => .valid kind
  | some v =>
    if Value.sameNotation v (.text kind.label) then .valid kind
    else .invalid [⟨.literal, [.key "type"]⟩]

def ofFields (kind : ShapeKind) (fields : List (Value × Value)) : Checked Definition :=
  .zipWith mk (checkType kind (Value.entry? "type" fields))
    (checkParameters rules kind [] (Value.entry? "parameters" fields))

def check (place : PathStep) (v : Value) : Checked Definition :=
  match v with
  | .dict fields =>
    match Value.entry? "type" fields with
    | none => .invalid [⟨.typeMissing, [place]⟩]
    | some (.text label) =>
      match ShapeKind.ofLabel? label with
      | none => .invalid [⟨.typeUnknown, [place]⟩]
      | some kind =>
        (checkParameters rules kind [place, .key label]
          (Value.entry? "parameters" fields)).map (mk kind)
    | some _ => .invalid [⟨.typeUnknown, [place]⟩]
  | v => .invalid [⟨if rules.hasFields v then .typeMissing else .definitionNotDict, [place]⟩]

end Definition

namespace Definitions

variable (rules : SchemaRules)

def checkKey (key : Value) : Checked String :=
  match rules.name key with
  | .ok name => .valid name
  | .error kind => .invalid [⟨kind, [rules.step key, .key "[key]"]⟩]

/-- An entry of the dictionary: its name and its definition are both checked. -/
def checkEntry (key v : Value) : Checked (String × Definition) :=
  .zipWith Prod.mk (checkKey rules key) (Definition.check rules (rules.step key) v)

def checkEntries : List (Value × Value) → Checked Definitions
  | [] => .valid []
  | (key, v) :: rest => .zipWith (· :: ·) (checkEntry rules key v) (checkEntries rest)

/-- Definitions with one more: a name that is there keeps its place and takes the new definition. -/
def insert (entry : String × Definition) : Definitions → Definitions
  | [] => [entry]
  | other :: rest => if other.1 = entry.1 then entry :: rest else other :: insert entry rest

def distinct (ds : Definitions) : Definitions := ds.foldl (fun acc entry => insert entry acc) []

/-- The definitions of a document; there has to be at least one. -/
def check (document : Value) : Checked Definitions :=
  match document with
  | .dict entries =>
    match checkEntries rules entries with
    | .valid [] => .refused .emptyDefinitions
    | outcome => outcome.map distinct
  | _ => .invalid [⟨.notDict, []⟩]

end Definitions

end FuzzyAlgebra

import FuzzyAlgebra.Definitions.Schema
import FuzzyAlgebra.FuzzySet.Combine
import FuzzyAlgebra.Logging.CallLog
import FuzzyAlgebra.Scope.Stack

/-!
# Loading definitions

From a document to definitions, from definitions to fuzzy sets over numbers, and from those to
variables of the innermost frame.
-/

namespace FuzzyAlgebra.Definitions

def display (ds : Definitions) : String :=
  "FuzzySetDefinitions(root=\x7b"
    ++ ", ".intercalate (ds.map fun (name, d) => Text.quoted name ++ ": " ++ d.display) ++ "\x7d)"

def rejection : String := "Failed to validate fuzzy set definitions: "

/-- The definitions of a document that is checked under given rules. -/
def loadUnder (rules : SchemaRules) (document : Value) : Traced Definitions :=
  match check rules document with
  | .refused f => .fail f
  | .invalid violations =>
    .failWith .error Channel.config rejection (.invalidDefinitions violations)
  | .valid ds => do
    .log .debug Channel.config
      ("Validated fuzzy set definitions: "
        ++ (Value.list (ds.map fun (name, _) => .text name)).display)
    pure ds

def load (document : Value) : Traced Definitions := loadUnder .lax document

variable {τ : Type} [ClassHierarchy τ]

/-- The fuzzy set of one definition, named like its variable. -/
def buildOne (number : τ) (key : Nat) (name : String) (d : Definition) :
    Traced (FuzzySet τ) := do
  let shape ← Shape.create (.text d.kind.label) (.list (d.parameters.map .float))
  FuzzySet.ofFunction key (.function (.ofShape shape)) (.tag number) (.text name)

/-- The fuzzy sets of all definitions, tagged with the type of numbers and keyed in order. -/
def build (number : τ) : Nat → Definitions → Traced (List (String × FuzzySet τ))
  | _, [] => pure []
  | key, (name, d) :: rest => do
    let s ← buildOne number key name d
    let others ← build number (key + 1) rest
    pure ((name, s) :: others)

def assignAll : List (String × FuzzySet τ) → Action (ScopeStack τ) Unit
  | [] => pure ()
  | (name, s) :: rest => do
    ScopeStack.assign (.text name) (.set s) .absent
    assignAll rest

/-- Builds every defined set and binds it in the innermost frame; entry and exit are logged. -/
def populate (number : τ) (key : Nat) (ds : Definitions) :
    Action (ScopeStack τ) (List (String × FuzzySet τ)) := fun scopes =>
  let arguments := [("scopes", scopes.display), ("definitions", display ds)]
  CallLog.standard.around Channel.config "FuzzySetConfigLoader.populate" (some arguments) 0
    (fun _ => .ok "")
    (do
      let sets ← build number key ds
      assignAll sets
      pure sets)
    scopes

end FuzzyAlgebra.Definitions

import FuzzyAlgebra.Mishap
import FuzzyAlgebra.Package
import FuzzyAlgebra.Toml.Scalar

/-!
# The project file

The version is kept in the project file, which is looked for next to the package and then upwards
from the working directory. What document the text of the file holds is for a reader to say.
-/

namespace FuzzyAlgebra.Project

def fallbackVersion : String := "0.0.0"

def member (v : Toml.Value) (name : String) : Except Mishap Toml.Value :=
  match v with
  | .table t =>
    match Toml.Table.get? t name with
    | some v => .ok v
    | none => .error .missingKey
  | _ => .error .wrongType

/-- The version that a document tells, if it is about this package. -/
def versionOf (document : Toml.Table) : Except Mishap Value := do
  let project ← member (.table document) "project"
  let name ← member project "name"
  match name with
  | .text s =>
    if s = Package.name then
      let version ← member project "version"
      pure version.toValue
    else pure (.text fallbackVersion)
  | _ => pure (.text fallbackVersion)

/-- The version of a project file. A file that is missing, not well formed or without a version
counts as one that does not tell it. -/
def version (read : Toml.TableReader) (file : Option ByteArray) : Except Mishap Value :=
  match file with
  | none => .ok (.text fallbackVersion)
  | some bytes =>
    match String.fromUTF8? bytes with
    | none => .error .undecodable
    | some s =>
      match read s with
      | .error .malformed => .ok (.text fallbackVersion)
      | .error .oversized => .error .malformed
      | .ok document =>
        match versionOf document with
        | .error .missingKey => .ok (.text fallbackVersion)
        | outcome => outcome

/-- Where the project file is looked for. -/
inductive Place where
  /-- The directory of the package. -/
  | package
  /-- The directory at a depth of the path to the working directory. -/
  | depth (n : Nat)
  deriving DecidableEq, Repr

/-- How many directories are looked at, the working directory first. -/
def searched : Nat := 4

/-- The first directory upwards that has a project file, if it is among the next `count`. -/
def findUpwards (has : Nat → Bool) : Nat → Nat → Option Nat
  | 0, _ => none
  | count + 1, n =>
    if has n then some n
    else match n with
      | 0 => none
      | n + 1 => findUpwards has count n

/-- The directory of the project file; that of the package if there is none. -/
def findRoot (packageHas : Bool) (has : Nat → Bool) (working : Nat) : Place :=
  if packageHas then .package
  else match findUpwards has searched working with
    | some n => .depth n
    | none => .package

end FuzzyAlgebra.Project

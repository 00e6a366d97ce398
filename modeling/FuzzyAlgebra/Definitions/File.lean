import FuzzyAlgebra.Definitions.Load
import FuzzyAlgebra.Files
import FuzzyAlgebra.Yaml.Cursor

/-!
# Definitions in files

A file holds one document, which a reader takes from its bytes. An empty one counts as a dictionary
without definitions.
-/

namespace FuzzyAlgebra

/-- What gives the value of the document that bytes hold, or the problem with it. -/
abbrev DocumentReader : Type := ByteArray → Except Yaml.Problem Value

namespace Definitions

/-- What the log says before the reason why a file is not well formed. -/
def malformedPrefix : String := "Invalid YAML in fuzzy set definitions file: "

/-- What the log says before the reason why a file cannot be read. -/
def unreadablePrefix : String := "Cannot read fuzzy set definitions file: "

/-- The definitions of a document that was read from a file. -/
def loadDocument (path : String) (document : Value) : Traced Definitions := do
  let document ← match document with
    | .absent => do
      .log .warning Channel.config ("Empty fuzzy set definitions file: " ++ path)
      pure (.dict [])
    | document => pure document
  let ds ← load document
  .log .info Channel.config
    ("Loaded " ++ toString ds.length ++ " fuzzy set definition(s) from " ++ path)
  pure ds

def loadBytes (read : DocumentReader) (path : String) (bytes : ByteArray) : Traced Definitions :=
  match read bytes with
  | .ok document => loadDocument path document
  | .error .malformed => .failWith .error Channel.config malformedPrefix (.malformedFile path)
  | .error (.mishap m) => .mishap m

def loadFile (read : DocumentReader) (path : String) (file : FileState) : Traced Definitions := do
  .log .info Channel.config ("Loading fuzzy set definitions from file: " ++ path)
  match file with
  | .missing =>
    .failWith .error Channel.config ("Fuzzy set definitions file not found: " ++ path)
      (.fileNotFound path)
  | .unreadable => .failWith .error Channel.config unreadablePrefix (.unreadableFile path)
  | .tooLong => .mishap .nameTooLong
  | .unsearchable => .mishap .notPermitted
  | .content bytes => loadBytes read path bytes

end Definitions

end FuzzyAlgebra

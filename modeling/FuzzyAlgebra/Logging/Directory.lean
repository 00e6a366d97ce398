import FuzzyAlgebra.Files
import FuzzyAlgebra.Mishap

/-!
# Directories of log files

The directories that were made for logs, and what their log files hold. A directory is made with all
that are missing above it.
-/

namespace FuzzyAlgebra

/-- The directories that were made, and the files with their contents. -/
structure LogTree where
  directories : List (List String)
  files : List (List String × String)

namespace LogTree

def empty : LogTree := ⟨[], []⟩

def fileName : String := "fuzzylang.log"

def isFile (t : LogTree) (place : List String) : Bool := t.files.any fun (p, _) => p = place

def isDirectory (t : LogTree) (place : List String) : Bool :=
  place.isEmpty || t.directories.contains place

def content? (t : LogTree) (directory : List String) : Option String :=
  (t.files.find? fun (p, _) => p = directory ++ [fileName]).map Prod.snd

/-- Makes the directories on a way, as far as they are missing. -/
def walk (place : List String) : List String → LogTree → Except Mishap (List String × LogTree)
  | [], t => .ok (place, t)
  | step :: rest, t =>
    if Files.longestName < step.utf8ByteSize then .error .nameTooLong
    else if step = ".." then walk place.dropLast rest t
    else
      let place := place ++ [step]
      if t.isFile place then .error (if rest.isEmpty then .alreadyThere else .insideFile)
      else
        walk place rest
          (if t.isDirectory place then t else { t with directories := place :: t.directories })

def make (path : String) (t : LogTree) : Except Mishap (List String × LogTree) :=
  if path.contains '\x00' then .error .malformed
  else if Files.longestPath < path.utf8ByteSize then .error .nameTooLong
  else walk [] (FilePath.stepsOf path) t

/-- Files with a text added to one of them; a file that is not there is made. -/
def addTo (place : List String) (text : String) :
    List (List String × String) → List (List String × String)
  | [] => [(place, text)]
  | (p, content) :: rest =>
    if p = place then (p, content ++ text) :: rest else (p, content) :: addTo place text rest

def append (directory : List String) (text : String) (t : LogTree) : LogTree :=
  { t with files := addTo (directory ++ [fileName]) text t.files }

/-- Opens the log file of a directory, where no directory may be. -/
def openFile (directory : List String) (t : LogTree) : Except Mishap LogTree :=
  if t.isDirectory (directory ++ [fileName]) then .error .isDirectory
  else .ok (t.append directory "")

end LogTree

end FuzzyAlgebra

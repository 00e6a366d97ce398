/-!
# Paths and files

A path is read relative to a home directory unless it starts at the root. Of the files only those
below the home directory are known.
-/

namespace FuzzyAlgebra

/-- What is found where a file is looked for. -/
inductive FileState where
  | missing
  /-- There is something, but no file that can be read. -/
  | unreadable
  /-- The way leads through a directory that may not be searched. -/
  | unsearchable
  /-- Nothing can have a name or a path of this length. -/
  | tooLong
  | content (bytes : ByteArray)

/-- A path: where it starts, and the names on the way. -/
structure FilePath where
  /-- How the start is written. -/
  start : String
  /-- Whether the path starts at the home directory. -/
  fromHome : Bool
  steps : List String

namespace FilePath

/-- The names of a text; empty ones and those of the same directory do not count. -/
def stepsOf (text : String) : List String :=
  (text.splitOn "/").filter fun step => step ≠ "" ∧ step ≠ "."

/-- The path of a text. Two slashes at the front, but not more, are kept. -/
def ofText (home text : String) : FilePath :=
  match (text.toList.takeWhile (· = '/')).length with
  | 0 => ⟨home, true, stepsOf text⟩
  | 2 => ⟨"//", false, stepsOf text⟩
  | _ => ⟨"/", false, stepsOf text⟩

def text (p : FilePath) : String :=
  if p.fromHome then "/".intercalate (p.start :: p.steps) else p.start ++ "/".intercalate p.steps

end FilePath

/-- The files below the home directory, with the names on the way to each. -/
abbrev Files : Type := List (List String × ByteArray)

namespace Files

def file? (fs : Files) (place : List String) : Option ByteArray :=
  (fs.find? fun (p, _) => p = place).map Prod.snd

/-- Whether a place below the home directory is a directory: one that holds a file does exist. -/
def isDirectory (fs : Files) (place : List String) : Bool :=
  place.isEmpty || fs.any fun (p, _) => place.isPrefixOf p && p ≠ place

def longestName : Nat := 255

def longestPath : Nat := 4095

/-- What is found after further steps from a directory; `none` is one outside the home directory,
of which nothing but the way out is known. -/
def walk (fs : Files) : Option (List String) → List String → FileState
  | _, [] => .unreadable
  | none, step :: rest =>
    if step = ".." then walk fs none rest
    else if longestName < step.utf8ByteSize then .tooLong
    else .missing
  | some place, step :: rest =>
    if step = ".." then walk fs (if place.isEmpty then none else some place.dropLast) rest
    else if longestName < step.utf8ByteSize then .tooLong
    else
      let next := place ++ [step]
      if isDirectory fs next then walk fs (some next) rest
      else
        match file? fs next, rest with
        | some bytes, [] => .content bytes
        | _, _ => .missing

/-- What is found at a path; nothing is where it holds a zero character. -/
def state (fs : Files) (p : FilePath) : FileState :=
  if p.text.contains '\x00' then .missing
  else if longestPath < p.text.utf8ByteSize then .tooLong
  else walk fs (if p.fromHome then some [] else none) p.steps

end Files

end FuzzyAlgebra

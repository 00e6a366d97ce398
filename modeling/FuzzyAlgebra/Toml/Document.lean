import FuzzyAlgebra.Toml.Scalar

/-!
# TOML documents

A document is a list of statements: headers that open a table, headers that add a table to an
array, and pairs of a key and a value. Each table may be opened once, values are never replaced, and
what is written in brackets or braces cannot be added to later.
-/

namespace FuzzyAlgebra.Toml

open Text (Reader expect isSpaceOrTab)

/-! ### Protected names -/

/-- How a name is protected. -/
inductive Protection where
  /-- The table has been opened and cannot be opened again. -/
  | opened
  /-- The value was written as a whole and cannot be added to. -/
  | frozen
  deriving DecidableEq

/-- A protected name; the protection may cover everything below it. -/
structure Mark where
  path : List String
  protection : Protection
  deep : Bool
  deriving DecidableEq

abbrev Marks : Type := List Mark

namespace Marks

def covers (ms : Marks) (path : List String) (p : Protection) : Bool :=
  !path.isEmpty && ms.any fun m =>
    m.protection = p ∧ (m.path = path ∨ (m.deep = true ∧ m.path.isPrefixOf path = true))

/-- Removes the protection of a name and of everything below it. -/
def release (path : List String) (ms : Marks) : Marks :=
  ms.filter fun m => !path.isPrefixOf m.path

end Marks

/-! ### Tables in braces -/

def addPair (ms : Marks) (t : Table) (path : List String) (v : Value) : Option (Marks × Table) :=
  if ms.covers path .frozen then none
  else
    match path.getLast? with
    | none => none
    | some name => do
      let t ← Table.update false (fun inner =>
        if inner.contains name then none else some (Table.set name v inner)) path.dropLast t
      pure (if v.isContainer then ⟨path, .frozen, true⟩ :: ms else ms, t)

/-! ### Values -/

/-- Skips blanks, line feeds and comments between the parts of an array or a table in braces. -/
def skipGap : Bool → List Char → Option (List Char)
  | _, [] => some []
  | true, c :: cs =>
    if c = '\n' then skipGap false cs
    else if isControl c then none
    else skipGap true cs
  | false, c :: cs =>
    if isSpaceOrTab c || c = '\n' then skipGap false cs
    else if c = '#' then skipGap true cs
    else some (c :: cs)

abbrev Part (α : Type) : Type := List Char → Outcome (α × List Char)

mutual

/-- A value of any kind. Each value and each separator uses up fuel. -/
def readValue : Nat → Part Value
  | 0, _ => .error .malformed
  | fuel + 1, cs =>
    match cs with
    | '"' :: _ => do
      let (s, rest) ← orMalformed (readText cs)
      pure (.text s, rest)
    | '\'' :: _ => do
      let (s, rest) ← orMalformed (readText cs)
      pure (.text s, rest)
    | 't' :: 'r' :: 'u' :: 'e' :: rest => .ok (.bool true, rest)
    | 'f' :: 'a' :: 'l' :: 's' :: 'e' :: rest => .ok (.bool false, rest)
    | '[' :: rest => do
      let rest ← orMalformed (skipGap false rest)
      let (items, rest) ← readItems fuel rest
      pure (.array items, rest)
    | '\x7b' :: rest => do
      let rest ← orMalformed (skipGap false rest)
      let (t, rest) ← readPairs fuel [] [] rest
      pure (.table t, rest)
    | _ => readNumber cs

def readItems : Nat → Part (List Value)
  | 0, _ => .error .malformed
  | fuel + 1, cs =>
    match cs with
    | ']' :: rest => .ok ([], rest)
    | _ => do
      let (v, rest) ← readValue fuel cs
      match ← orMalformed (skipGap false rest) with
      | ']' :: rest => .ok ([v], rest)
      | ',' :: rest => do
        let (items, rest) ← readItems fuel (← orMalformed (skipGap false rest))
        pure (v :: items, rest)
      | _ => .error .malformed

def readPair : Nat → Part (List String × Value)
  | 0, _ => .error .malformed
  | fuel + 1, cs => do
    let (path, rest) ← orMalformed (readKey cs)
    let (_, rest) ← orMalformed (expect '=' rest)
    let (v, rest) ← readValue fuel (skipBlanks rest)
    pure ((path, v), rest)

/-- The rest of a table in braces, which adds pairs to those that were read before. -/
def readPairs : Nat → Marks → Table → Part Table
  | 0, _, _, _ => .error .malformed
  | fuel + 1, ms, t, cs =>
    match cs with
    | '\x7d' :: rest => .ok (t, rest)
    | _ => do
      let ((path, v), rest) ← readPair fuel cs
      let (ms, t) ← orMalformed (addPair ms t path v)
      match ← orMalformed (skipGap false rest) with
      | '\x7d' :: rest => .ok (t, rest)
      | ',' :: rest => do readPairs fuel ms t (← orMalformed (skipGap false rest))
      | _ => .error .malformed

end

/-! ### Statements -/

/-- A statement of a document. -/
inductive Statement where
  | openTable (path : List String)
  | appendTable (path : List String)
  | pair (path : List String) (v : Value)

def readStatement (cs : List Char) : Outcome (Statement × List Char) :=
  match cs with
  | '[' :: '[' :: rest => orMalformed do
    let (path, rest) ← readKey (skipBlanks rest)
    let (_, rest) ← expect ']' rest
    let (_, rest) ← expect ']' rest
    pure (.appendTable path, rest)
  | '[' :: rest => orMalformed do
    let (path, rest) ← readKey (skipBlanks rest)
    let (_, rest) ← expect ']' rest
    pure (.openTable path, rest)
  | _ => do
    let ((path, v), rest) ← readPair (2 * cs.length + 2) cs
    pure (.pair path v, rest)

/-- The end of a line: blanks and a comment, then a line feed or the end of the text. -/
def endLine (cs : List Char) : Option (List Char) :=
  let rest := skipBlanks cs
  let comment := match rest with
    | '#' :: more => more.takeWhile (· ≠ '\n')
    | _ => []
  let rest := match rest with
    | '#' :: more => more.dropWhile (· ≠ '\n')
    | rest => rest
  if comment.any isControl then none
  else
    match rest with
    | [] => some []
    | '\n' :: rest => some rest
    | _ => none

/-! ### Documents -/

/-- A document under construction. The marks of dotted keys come into force at the next header. -/
structure Draft where
  root : Table
  header : List String
  marks : Marks
  pending : Marks

namespace Draft

def empty : Draft := ⟨[], [], [], []⟩

def settle (d : Draft) : Draft := { d with marks := d.pending ++ d.marks, pending := [] }

def openTable (d : Draft) (path : List String) : Option Draft :=
  if d.marks.covers path .opened || d.marks.covers path .frozen then none
  else do
    let root ← Table.update true some path d.root
    pure { d with root, header := path, marks := ⟨path, .opened, false⟩ :: d.marks }

def appendTable (d : Draft) (path : List String) : Option Draft :=
  if d.marks.covers path .frozen then none
  else do
    let root ← Table.appendTo path.dropLast (path.getLastD "") d.root
    pure { d with
      root, header := path, marks := ⟨path, .opened, false⟩ :: d.marks.release path }

def stations (header path : List String) : List (List String) :=
  (List.range (path.length - 1)).map fun i => header ++ path.take (i + 1)

def pair (d : Draft) (path : List String) (v : Value) : Option Draft :=
  let through := stations d.header path
  let name := path.getLastD ""
  let parent := d.header ++ path.dropLast
  if through.any fun station => d.marks.covers station .opened then none
  else if d.marks.covers parent .frozen then none
  else do
    let root ← Table.update true (fun inner =>
      if inner.contains name then none else some (Table.set name v inner)) parent d.root
    let marks := if v.isContainer then ⟨d.header ++ path, .frozen, true⟩ :: d.marks else d.marks
    pure { d with
      root, marks, pending := d.pending ++ through.map fun station => ⟨station, .opened, false⟩ }

def step (d : Draft) : Statement → Option Draft
  | .openTable path => d.settle.openTable path
  | .appendTable path => d.settle.appendTable path
  | .pair path v => d.pair path v

end Draft

def plainLines : List Char → List Char
  | '\r' :: '\n' :: cs => '\n' :: plainLines cs
  | c :: cs => c :: plainLines cs
  | [] => []

/-- The draft after the statements of a text, one on a line; at most `fuel` lines. -/
def Draft.readLines : Nat → Draft → List Char → Outcome Draft
  | 0, _, _ => .error .malformed
  | fuel + 1, d, cs =>
    match skipBlanks cs with
    | [] => .ok d
    | '\n' :: rest => readLines fuel d rest
    | '#' :: rest => do readLines fuel d (← orMalformed (endLine ('#' :: rest)))
    | c :: rest =>
      if startsKey c || c = '[' then do
        let (s, rest) ← readStatement (c :: rest)
        let d ← orMalformed (d.step s)
        readLines fuel d (← orMalformed (endLine rest))
      else .error .malformed

def read (s : String) : Outcome Table := do
  let cs := plainLines s.toList
  let d ← Draft.readLines (cs.length + 1) Draft.empty cs
  pure d.root

end FuzzyAlgebra.Toml

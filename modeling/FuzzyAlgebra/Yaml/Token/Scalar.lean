import FuzzyAlgebra.Power
import FuzzyAlgebra.Text.Digit
import FuzzyAlgebra.Text.Reader
import FuzzyAlgebra.Text.Surrogate
import FuzzyAlgebra.Yaml.Token

/-!
# Reading scalars

The three ways to write a scalar: plain, in quotes, and as an indented block. Within a scalar the
end of a line becomes a blank, and empty lines become ends of lines; a block keeps its lines unless
it is folded.
-/

namespace FuzzyAlgebra.Yaml

/-- Ends of lines between two parts of a scalar: a first one, and those of empty lines. -/
def foldBreaks (first : Char) (others : List Char) : List Char :=
  if first ≠ '\n' then first :: others
  else if others.isEmpty then [' ']
  else others

/-! ### Plain scalars -/

/-- The characters of a plain scalar up to the end of the word, to a colon that marks a value, or
inside brackets to a sign of the collection. -/
def plainRun (flow : Bool) : List Char → List Char
  | [] => []
  | c :: rest =>
    let next := rest.headD endMark
    if isGap c then []
    else if c = ':' && (isGap next || (flow && isOneOf ",[]\x7b\x7d" next)) then []
    else if flow && isOneOf ",?[]\x7b\x7d" c then []
    else c :: plainRun flow rest

/-- Empty lines inside a plain scalar; nothing if a document ends there. -/
def plainBreaks : Nat → Cursor → Option (List Char) × Cursor
  | 0, c => (some [], c)
  | fuel + 1, c =>
    if c.peek = ' ' then plainBreaks fuel c.advance
    else if isBreak c.peek then
      let next := c.advance
      if next.isAtSeparator then (none, next)
      else
        let (breaks, last) := plainBreaks fuel next
        (breaks.map (breakText c.peek :: ·), last)
    else (some [], c)

/-- The space after a word of a plain scalar: what it counts for if the scalar goes on, the place
after it, and whether a line ended. -/
def plainSpace (c : Cursor) : List Char × Cursor × Bool :=
  let (blanks, c) := c.span (· = ' ')
  if isBreak c.peek then
    let next := c.advance
    if next.isAtSeparator then ([], next, true)
    else
      match plainBreaks next.fuel next with
      | (none, last) => ([], last, true)
      | (some breaks, last) => (foldBreaks (breakText c.peek) breaks, last, true)
  else (blanks, c, false)

/-- The rest of a plain scalar, `pending` being the space before it. Also tells the place after the
scalar and whether a line ended after its last word. -/
def plainFrom (flow : Bool) (indent : Int) (lineEnded : Bool) (pending : List Char) :
    Nat → Cursor → List Char × Cursor × Bool
  | 0, c => ([], c, lineEnded)
  | fuel + 1, c =>
    let run := if c.peek = '#' then [] else plainRun flow c.rest
    if run.isEmpty then ([], c, lineEnded)
    else
      let (space, c, lineEnded) := plainSpace (c.advanceBy run.length)
      if space.isEmpty || c.peek = '#' || (!flow && c.column < indent) then
        (pending ++ run, c, lineEnded)
      else
        let (text, c, lineEnded) := plainFrom flow indent lineEnded space fuel c
        (pending ++ run ++ text, c, lineEnded)

def plainScalar (flow : Bool) (indent : Int) (c : Cursor) : List Char × Cursor × Bool :=
  plainFrom flow indent false [] c.fuel c

/-! ### Scalars in quotes -/

def escaped? (c : Char) : Option Char :=
  match c with
  | '0' => some '\x00'
  | 'a' => some '\x07'
  | 'b' => some '\x08'
  | 't' => some '\t'
  | '\t' => some '\t'
  | 'n' => some '\n'
  | 'v' => some '\x0b'
  | 'f' => some '\x0c'
  | 'r' => some '\r'
  | 'e' => some '\x1b'
  | ' ' => some ' '
  | '"' => some '"'
  | '\\' => some '\\'
  | '/' => some '/'
  | 'N' => some '\x85'
  | '_' => some '\xa0'
  | 'L' => some '\u2028'
  | 'P' => some '\u2029'
  | _ => none

/-- How many hexadecimal digits follow a backslash and a letter. -/
def codeWidth? (c : Char) : Option Nat :=
  match c with
  | 'x' => some 2
  | 'u' => some 4
  | 'U' => some 8
  | _ => none

def hexNumber? (c : Cursor) (width : Nat) : Option Nat :=
  (List.range width).foldlM (fun n k => (Text.hexDigit? (c.peekAt k)).map fun d => 16 * n + d) 0

def hexRun (c : Cursor) : Nat := (c.rest.takeWhile fun x => (Text.hexDigit? x).isSome).length

/-- The character of a code point, or the one that stands in for a surrogate. -/
def charOf (n : Nat) : Except Mishap Char :=
  if n.isValidChar then .ok (Char.ofNat n)
  else if n ≤ 0xffff then .ok (Text.standIn n)
  else if n < 2 ^ 31 then .error .malformed
  else .error .tooLarge

/-- Ends of lines and the blanks around them; a document may not end there. -/
def quotedBreaks : Nat → Cursor → Except Halt (List Char × Cursor)
  | 0, c => .ok ([], c)
  | fuel + 1, c =>
    if c.isAtSeparator then c.refuse
    else
      let c := c.skip Text.isSpaceOrTab
      if isBreak c.peek then do
        let (breaks, last) ← quotedBreaks fuel c.advance
        pure (breakText c.peek :: breaks, last)
      else pure ([], c)

def quotedSpace (c : Cursor) : Except Halt (List Char × Cursor) :=
  let (blanks, c) := c.span Text.isSpaceOrTab
  if c.peek = endMark then c.refuse
  else if isBreak c.peek then do
    let (breaks, last) ← quotedBreaks c.fuel c.advance
    pure (foldBreaks (breakText c.peek) breaks, last)
  else pure (blanks, c)

/-- What a backslash inside double quotes stands for; the cursor is after the backslash. -/
def escape (c : Cursor) : Except Halt (List Char × Cursor) :=
  match escaped? c.peek, codeWidth? c.peek with
  | some x, _ => .ok ([x], c.advance)
  | none, some width => do
    let c := c.advance
    match hexNumber? c width with
    | none => c.refuseAt (hexRun c)
    | some n =>
      match charOf n with
      | .ok x => pure ([x], c.advanceBy width)
      | .error m => c.mishap m
  | none, none => if isBreak c.peek then quotedBreaks c.fuel c.advance else c.refuse

def quotedWord (double : Bool) : Nat → Cursor → Except Halt (List Char × Cursor)
  | 0, c => .ok ([], c)
  | fuel + 1, c => do
    let (run, c) := c.span fun x => !isGap x && x ≠ '\'' && x ≠ '"' && x ≠ '\\'
    let part ←
      if !double && c.peek = '\'' && c.peekAt 1 = '\'' then pure (some (['\''], c.advanceBy 2))
      else if double && c.peek = '\\' then (escape c.advance).map some
      else if (double && c.peek = '\'') || (!double && (c.peek = '"' || c.peek = '\\')) then
        pure (some ([c.peek], c.advance))
      else pure none
    match part with
    | none => pure (run, c)
    | some (text, c) => do
      let (more, c) ← quotedWord double fuel c
      pure (run ++ text ++ more, c)

def quotedFrom (double : Bool) : Nat → Cursor → Except Halt (List Char × Cursor)
  | 0, c => c.refuse
  | fuel + 1, c => do
    let (word, c) ← quotedWord double c.fuel c
    if c.peek = (if double then '"' else '\'') then pure (word, c.advance)
    else do
      let (space, c) ← quotedSpace c
      let (more, c) ← quotedFrom double fuel c
      pure (word ++ space ++ more, c)

def quotedScalar (double : Bool) (c : Cursor) : Except Halt (List Char × Cursor) :=
  quotedFrom double c.fuel c.advance

/-! ### Block scalars -/

/-- What happens to the ends of lines at the end of a block: by default the last one stays. -/
inductive Chomping where
  | clip
  | strip
  | keep
  deriving DecidableEq

def chomping? (c : Char) : Option Chomping :=
  if c = '+' then some .keep else if c = '-' then some .strip else none

def indentation? (c : Cursor) : Except Halt (Option Nat × Cursor) :=
  if c.peek.isDigit then
    if c.peek = '0' then c.refuse
    else .ok (some (c.peek.toNat - 48), c.advance)
  else .ok (none, c)

/-- Chomping and indentation at the head of a block, in any order. -/
def blockHead (c : Cursor) : Except Halt (Chomping × Option Nat × Cursor) := do
  let (chomping, increment, c) ←
    match chomping? c.peek with
    | some chomping => do
      let (increment, c) ← indentation? c.advance
      pure (chomping, increment, c)
    | none => do
      let (increment, c) ← indentation? c
      match increment, chomping? c.peek with
      | some _, some chomping => pure (chomping, increment, c.advance)
      | _, _ => pure (.clip, increment, c)
  if isBreakOrEnd c.peek || c.peek = ' ' then pure (chomping, increment, c)
  else c.refuse

def restOfLine (c : Cursor) : Except Halt Cursor :=
  let c := c.skipSpaces.skipComment
  if isBreakOrEnd c.peek then .ok c.takeBreak.2 else c.refuse

/-- Empty lines at the start of a block, and the greatest column they reach. -/
def blockIndentation (widest : Nat) : Nat → Cursor → List Char × Nat × Cursor
  | 0, c => ([], widest, c)
  | fuel + 1, c =>
    if c.peek = ' ' then
      let c := c.advance
      blockIndentation (max widest c.column) fuel c
    else if isBreak c.peek then
      let (breaks, widest, last) := blockIndentation widest fuel c.advance
      (breakText c.peek :: breaks, widest, last)
    else ([], widest, c)

def skipIndent (indent : Nat) (c : Cursor) : Cursor :=
  c.advanceBy ((c.rest.takeWhile (· = ' ')).length.min (indent - c.column))

/-- Empty lines inside a block, and the indentation of the line after them. -/
def blockBreaks (indent : Nat) : Nat → Cursor → List Char × Cursor
  | 0, c => ([], c)
  | fuel + 1, c =>
    let c := skipIndent indent c
    if isBreak c.peek then
      let (breaks, last) := blockBreaks indent fuel c.advance
      (breakText c.peek :: breaks, last)
    else ([], c)

/-- The lines of a block; `breaks` are the empty lines before the next one. Returns the text, the
end of the last line, the empty lines after it, and the place. -/
def blockLines (folded : Bool) (indent : Nat) (breaks : List Char) :
    Nat → Cursor → List Char × List Char × List Char × Cursor
  | 0, c => ([], [], breaks, c)
  | fuel + 1, c =>
    let startsWithWord := c.peek ≠ ' ' && c.peek ≠ '\t'
    let (line, c) := c.span fun x => !isBreak x
    let (lineBreak, c) := c.takeBreak
    let (next, c) := blockBreaks indent c.fuel c
    if c.column = indent && c.peek ≠ endMark then
      let joint :=
        if folded && lineBreak = ['\n'] && startsWithWord && c.peek ≠ ' ' && c.peek ≠ '\t' then
          (if next.isEmpty then [' '] else [])
        else lineBreak
      let (text, lineBreak, rest, c) := blockLines folded indent next fuel c
      (breaks ++ line ++ joint ++ text, lineBreak, rest, c)
    else (breaks ++ line, lineBreak, next, c)

/-- A block scalar; the cursor is at its sign, and `least` is the least column of its lines. -/
def blockScalar (folded : Bool) (least : Nat) (c : Cursor) :
    Except Halt (List Char × Cursor) := do
  let (chomping, increment, c) ← blockHead c.advance
  let c ← restOfLine c
  let (breaks, indent, c) := match increment with
    | none =>
      let (breaks, widest, c) := blockIndentation 0 c.fuel c
      (breaks, max least widest, c)
    | some n =>
      let indent := least + n - 1
      let (breaks, c) := blockBreaks indent c.fuel c
      (breaks, indent, c)
  let (text, lineBreak, rest, c) :=
    if c.column = indent && c.peek ≠ endMark then blockLines folded indent breaks c.fuel c
    else ([], [], breaks, c)
  let tail := match chomping with
    | .strip => []
    | .clip => lineBreak
    | .keep => lineBreak ++ rest
  pure (text ++ tail, c)

end FuzzyAlgebra.Yaml

import FuzzyAlgebra.Yaml.Source
import FuzzyAlgebra.Yaml.Token.Property

/-!
# From text to tokens

A scalar, alias or collection that stands where a key can stand is remembered as a possible key; a
colon that follows on the same line, not too far away, makes it one, and only then are the tokens
before it completed.
-/

namespace FuzzyAlgebra.Yaml

/-- A place where a key may have begun. -/
structure PossibleKey where
  /-- The number of the token that the key begins with. -/
  token : Nat
  /-- Nothing but a key can stand there. -/
  required : Bool
  index : Nat
  line : Nat
  column : Nat

/-- The tokens read so far, and what has to be known to read the next one. -/
structure Lexer where
  cursor : Cursor
  /-- How many brackets and braces are open. -/
  flowLevel : Nat
  /-- The indentation of the innermost block; less than zero outside all blocks. -/
  indent : Int
  outerIndents : List Int
  /-- Whether a key can begin here. -/
  keyAllowed : Bool
  /-- The possible keys by the number of open brackets. -/
  keys : List (Nat × PossibleKey)
  tokens : Array Token

namespace Lexer

def start (cs : List Char) : Lexer := ⟨.start cs, 0, -1, [], true, [], #[]⟩

def inFlow (l : Lexer) : Bool := l.flowLevel ≠ 0

def push (t : Token) (l : Lexer) : Lexer := { l with tokens := l.tokens.push t }

def take (n : Nat) (t : Token) (l : Lexer) : Lexer :=
  { l with cursor := l.cursor.advanceBy n, tokens := l.tokens.push t }

def key? (l : Lexer) : Option PossibleKey :=
  (l.keys.find? fun (level, _) => level = l.flowLevel).map Prod.snd

def withoutKey (l : Lexer) : Lexer :=
  { l with keys := l.keys.filter fun (level, _) => level ≠ l.flowLevel }

/-- Skips blanks, comments and ends of lines; outside brackets a key can begin on a new line. -/
def skipToToken : Nat → Lexer → Lexer
  | 0, l => l
  | fuel + 1, l =>
    let c := l.cursor.skipSpaces.skipComment
    if isBreak c.peek then
      skipToToken fuel { l with cursor := c.advance, keyAllowed := l.keyAllowed || !l.inFlow }
    else { l with cursor := c }

def isStale (l : Lexer) (k : PossibleKey) : Bool :=
  k.line ≠ l.cursor.line || 1024 < l.cursor.index - k.index

def dropStaleKeys (l : Lexer) : Except Halt Lexer :=
  if l.keys.any fun (_, k) => l.isStale k && k.required then l.cursor.refuse
  else .ok { l with keys := l.keys.filter fun (_, k) => !l.isStale k }

def dropKey (l : Lexer) : Except Halt Lexer :=
  match l.key? with
  | some k => if k.required then l.cursor.refuse else .ok l.withoutKey
  | none => .ok l

def saveKey (l : Lexer) : Except Halt Lexer :=
  if l.keyAllowed then do
    let required := !l.inFlow && l.indent = l.cursor.column
    let k : PossibleKey :=
      ⟨l.tokens.size, required, l.cursor.index, l.cursor.line, l.cursor.column⟩
    let l ← l.dropKey
    pure { l with keys := (l.flowLevel, k) :: l.keys }
  else pure l

/-- Closes the blocks that are indented further than a column. -/
def unwindFrom (column : Int) : List Int → Lexer → Lexer
  | [], l => l
  | outer :: rest, l =>
    if column < l.indent then
      unwindFrom column rest ({ l with indent := outer, outerIndents := rest }.push .blockEnd)
    else l

def unwind (column : Int) (l : Lexer) : Lexer :=
  if l.inFlow then l else unwindFrom column l.outerIndents l

/-- Opens a block at a column, if that is further in; tells whether it did. -/
def openBlock (column : Nat) (l : Lexer) : Bool × Lexer :=
  if l.indent < column then
    (true, { l with indent := column, outerIndents := l.indent :: l.outerIndents })
  else (false, l)

/-- Opens a block here outside brackets, where a key has to be allowed. -/
def openBlockHere (t : Token) (l : Lexer) : Except Halt Lexer :=
  if l.inFlow then .ok l
  else if !l.keyAllowed then l.cursor.refuse
  else
    let (opened, l) := l.openBlock l.cursor.column
    .ok (if opened then l.push t else l)

/-! ### One token -/

def takeEnd (l : Lexer) : Except Halt Lexer := do
  let l ← (l.unwind (-1)).dropKey
  pure ({ l with keyAllowed := false, keys := [] }.push .streamEnd)

def takeDirective (l : Lexer) : Except Halt Lexer := do
  let l ← (l.unwind (-1)).dropKey
  let (t, cursor) ← directiveToken l.cursor
  pure ({ l with keyAllowed := false, cursor }.push t)

def takeSeparator (t : Token) (l : Lexer) : Except Halt Lexer := do
  let l ← (l.unwind (-1)).dropKey
  pure ({ l with keyAllowed := false }.take 3 t)

def takeFlowStart (t : Token) (l : Lexer) : Except Halt Lexer := do
  let l ← l.saveKey
  pure ({ l with flowLevel := l.flowLevel + 1, keyAllowed := true }.take 1 t)

def takeFlowEnd (t : Token) (l : Lexer) : Except Halt Lexer := do
  let l ← l.dropKey
  pure ({ l with flowLevel := l.flowLevel - 1, keyAllowed := false }.take 1 t)

def takeFlowEntry (l : Lexer) : Except Halt Lexer := do
  let l ← { l with keyAllowed := true }.dropKey
  pure (l.take 1 .flowEntry)

def takeBlockEntry (l : Lexer) : Except Halt Lexer := do
  let l ← l.openBlockHere .blockSequenceStart
  let l ← { l with keyAllowed := true }.dropKey
  pure (l.take 1 .blockEntry)

def takeKey (l : Lexer) : Except Halt Lexer := do
  let l ← l.openBlockHere .blockMappingStart
  let l ← { l with keyAllowed := !l.inFlow }.dropKey
  pure (l.take 1 .key)

/-- A colon: it completes the possible key of this level, or begins the value of an explicit one. -/
def takeValue (l : Lexer) : Except Halt Lexer :=
  match l.key? with
  | some k =>
    let (opened, l) := if l.inFlow then (false, l.withoutKey) else l.withoutKey.openBlock k.column
    let before := if opened then #[Token.blockMappingStart, .key] else #[.key]
    let tokens := l.tokens.extract 0 k.token ++ before ++ l.tokens.extract k.token l.tokens.size
    .ok ({ l with tokens, keyAllowed := false }.take 1 .value)
  | none => do
    let l ← l.openBlockHere .blockMappingStart
    let l ← { l with keyAllowed := !l.inFlow }.dropKey
    pure (l.take 1 .value)

/-- A token that can be a key and that no key can follow directly. -/
def takeKeyable (read : Cursor → Except Halt (Token × Cursor)) (l : Lexer) :
    Except Halt Lexer := do
  let l ← l.saveKey
  let (t, cursor) ← read l.cursor
  pure ({ l with keyAllowed := false, cursor }.push t)

def readAnchor (make : String → Token) (c : Cursor) : Except Halt (Token × Cursor) := do
  let (name, c) ← anchorName c
  pure (make name, c)

def readQuoted (double : Bool) (c : Cursor) : Except Halt (Token × Cursor) := do
  let (text, c) ← quotedScalar double c
  pure (.scalar (String.ofList text) false, c)

def takeBlockScalar (folded : Bool) (l : Lexer) : Except Halt Lexer := do
  let l ← { l with keyAllowed := true }.dropKey
  let least := (max (l.indent + 1) 1).toNat
  let (text, cursor) ← blockScalar folded least l.cursor
  pure ({ l with cursor }.push (.scalar (String.ofList text) false))

def takePlain (l : Lexer) : Except Halt Lexer := do
  let l ← l.saveKey
  let (text, cursor, lineEnded) := plainScalar l.inFlow (l.indent + 1) l.cursor
  pure ({ l with keyAllowed := lineEnded, cursor }.push (.scalar (String.ofList text) true))

def startsPlain (l : Lexer) : Bool :=
  let x := l.cursor.peek
  (!isGap x && !isOneOf "-?:,[]\x7b\x7d#&*!|>'\"%@\x60" x)
    || (!isGap (l.cursor.peekAt 1) && (x = '-' || (!l.inFlow && (x = '?' || x = ':'))))

def takeToken (l : Lexer) : Except Halt Lexer :=
  let c := l.cursor
  let x := c.peek
  let wordEnds := isGap (c.peekAt 1)
  if c.rest.isEmpty then l.takeEnd
  else if x = '%' && c.column = 0 then l.takeDirective
  else if c.column = 0 && c.isAtMark '-' then l.takeSeparator .documentStart
  else if c.column = 0 && c.isAtMark '.' then l.takeSeparator .documentEnd
  else if x = '[' then l.takeFlowStart .flowSequenceStart
  else if x = '\x7b' then l.takeFlowStart .flowMappingStart
  else if x = ']' then l.takeFlowEnd .flowSequenceEnd
  else if x = '\x7d' then l.takeFlowEnd .flowMappingEnd
  else if x = ',' then l.takeFlowEntry
  else if x = '-' && wordEnds then l.takeBlockEntry
  else if x = '?' && (l.inFlow || wordEnds) then l.takeKey
  else if x = ':' && (l.inFlow || wordEnds) then l.takeValue
  else if x = '*' then l.takeKeyable (readAnchor .alias)
  else if x = '&' then l.takeKeyable (readAnchor .anchor)
  else if x = '!' then l.takeKeyable tagToken
  else if x = '|' && !l.inFlow then l.takeBlockScalar false
  else if x = '>' && !l.inFlow then l.takeBlockScalar true
  else if x = '\'' then l.takeKeyable (readQuoted false)
  else if x = '"' then l.takeKeyable (readQuoted true)
  else if l.startsPlain then l.takePlain
  else c.refuse

/-- Reads the next token, closing blocks that ended before it. -/
def step (l : Lexer) : Except Halt Lexer := do
  let l ← (skipToToken l.cursor.fuel l).dropStaleKeys
  (l.unwind l.cursor.column).takeToken

def isAtEnd (l : Lexer) : Bool := l.tokens.back? matches some .streamEnd

/-- How many tokens are complete when the next one cannot be read: those before the first key that
was still possible after the last one. -/
def completed (l : Lexer) : Nat :=
  let possible := l.keys.filter fun (_, k) => !l.isStale k
  (possible.map fun (_, k) => k.token).foldl min l.tokens.size

/-- Reads the next token of a source, whose fault shows before anything past it. -/
def next (source : Source) (l : Lexer) : Except Problem Lexer :=
  match l.step with
  | .error halt => .error ((source.faultAt? halt.index).getD halt.problem)
  | .ok next =>
    match source.faultAt? next.cursor.index with
    | some p => .error p
    | none => .ok next

/-- Reads tokens until the text ends or no token can be read. -/
def run (source : Source) : Nat → Lexer → Array Token
  | 0, l => l.tokens
  | fuel + 1, l =>
    match l.next source with
    | .error p => (l.tokens.extract 0 l.completed).push (.broken p)
    | .ok next => if next.isAtEnd then next.tokens else run source fuel next

/-- The place after a byte order mark at the start of a text. -/
def skipByteOrderMark (c : Cursor) : Cursor :=
  if c.peek = byteOrderMark then c.advance else c

end Lexer

def Token.ofSource (source : Source) : List Token :=
  let l := Lexer.start source.chars
  let l := { l with cursor := Lexer.skipByteOrderMark l.cursor }
  (Lexer.run source (source.chars.length + 2) l).toList

end FuzzyAlgebra.Yaml

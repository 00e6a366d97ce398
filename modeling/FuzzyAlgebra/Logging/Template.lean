import FuzzyAlgebra.Logging.FieldForm
import FuzzyAlgebra.Logging.Record
import FuzzyAlgebra.Text.Digit
import FuzzyAlgebra.Text.Letter

/-!
# Layouts of log lines

A layout is a text with fields such as `%(message)-8s`, which are filled from a record. Two percent
signs stand for one. A layout is accepted if a field occurs in it anywhere, and may still turn out
not to be well formed when a line is written.
-/

namespace FuzzyAlgebra

/-- A part of a layout. -/
inductive TemplatePart where
  | literal (c : Char)
  | field (name : Option String) (form : FieldForm)
  /-- The start of a field whose name does not end. -/
  | unfinished
  deriving DecidableEq, Repr

/-- A layout. -/
structure Template where
  text : String
  deriving DecidableEq, Repr

namespace Template

/-! ### Reading -/

/-- The name up to its closing parenthesis; parentheses inside are balanced. -/
def takeName? (depth : Nat) : List Char → Option (List Char × List Char)
  | [] => none
  | c :: cs =>
    if c = ')' ∧ depth = 0 then some ([], cs)
    else
      let depth := if c = ')' then depth - 1 else if c = '(' then depth + 1 else depth
      (takeName? depth cs).map fun (name, rest) => (c :: name, rest)

/-- A count of digits, or a star for one that is given elsewhere. -/
def takeExtent (cs : List Char) : Extent × List Char :=
  match cs with
  | '*' :: rest => (.supplied, rest)
  | cs =>
    let digits := cs.takeWhile Char.isDigit
    (if digits.isEmpty then .none else .count (Binary64.digitsValue digits), cs.drop digits.length)

/-- A precision after its point, which stands for none if nothing follows the point. -/
def takePrecision (cs : List Char) : Extent × List Char :=
  match cs with
  | '.' :: rest =>
    match takeExtent rest with
    | (.none, rest) => (.count 0, rest)
    | taken => taken
  | cs => (.none, cs)

def isFlag (c : Char) : Bool := "#0+ -".toList.contains c

def takeForm (cs : List Char) : FieldForm × List Char :=
  let flags := cs.takeWhile isFlag
  let (width, rest) := takeExtent (cs.drop flags.length)
  let (precision, rest) := takePrecision rest
  let rest := if ['h', 'l', 'L'].any fun c => rest.head? = some c then rest.drop 1 else rest
  ({ left := flags.contains '-'
     signed := flags.contains '+'
     spaced := flags.contains ' '
     alternate := flags.contains '#'
     zeroFilled := flags.contains '0'
     width
     precision
     letter? := rest.head? }, rest.drop 1)

def takeField (cs : List Char) : TemplatePart × List Char :=
  let named? := match cs with
    | '(' :: rest => (takeName? 0 rest).map fun (name, rest) => (some (String.ofList name), rest)
    | cs => some (none, cs)
  match named? with
  | none => (.unfinished, [])
  | some (name, rest) =>
    let (form, rest) := takeForm rest
    (.field name form, rest)

def partsFrom : Nat → List Char → List TemplatePart
  | 0, _ => []
  | _, [] => []
  | fuel + 1, '%' :: '%' :: rest => .literal '%' :: partsFrom fuel rest
  | fuel + 1, '%' :: rest =>
    let (part, rest) := takeField rest
    part :: partsFrom fuel rest
  | fuel + 1, c :: rest => .literal c :: partsFrom fuel rest

def parts (t : Template) : List TemplatePart := partsFrom t.text.toList.length t.text.toList

/-! ### Acceptance -/

def isNameChar (c : Char) : Bool := Text.isAlphanumeric c || c = '_'

/-- The letters that end a field that counts, in either case. The long s and the letters i with and
without a dot are cases of others. -/
def isLetter (c : Char) : Bool := "diouxefgcrsa%İıſ".toList.contains c.toLower

/-- What follows a star, or a count in digits of any script. -/
def skipCount (cs : List Char) : List Char :=
  match cs with
  | '*' :: rest => rest
  | cs => cs.dropWhile fun c => (Text.digitValue? c).isSome

def skipPrecision (cs : List Char) : List Char :=
  match cs with
  | '.' :: rest => if (skipCount rest).length < rest.length then skipCount rest else cs
  | cs => cs

def startsWithField (cs : List Char) : Bool :=
  match cs with
  | '%' :: '(' :: rest =>
    match rest.dropWhile isNameChar with
    | ')' :: after =>
      (rest.headD ')') ≠ ')'
        && (skipPrecision (skipCount (after.dropWhile isFlag))).head?.any isLetter
    | _ => false
  | _ => false

def hasField : List Char → Bool
  | [] => false
  | c :: cs => startsWithField (c :: cs) || hasField cs

def plainMessage : Template := ⟨"%(message)s"⟩

/-- The layout of a value: a text with a field. One that counts as false leaves the layout open. -/
def ofValue (v : Value) : Except Mishap Template := do
  if !(← v.truth) then .ok plainMessage
  else
    match v with
    | .text s => if hasField s.toList then .ok ⟨s⟩ else .error .malformed
    | _ => .error .wrongType

/-! ### Lines -/

/-- The fields that a record has when its level and its message are written as given. Those about
the time and place of the call are left blank. -/
def attributes (levelName message : String) (r : LogRecord) : List (String × Value) :=
  let message : Value := .text message
  [("name", .text r.channel), ("msg", message), ("args", .tuple []),
    ("levelname", .text levelName), ("levelno", .int r.level.rank), ("message", message),
    ("asctime", .text ""), ("pathname", .text ""), ("filename", .text ""), ("module", .text ""),
    ("funcName", .text ""), ("lineno", .int 0), ("exc_info", .absent), ("exc_text", .absent),
    ("stack_info", .absent), ("created", .float 0), ("msecs", .float 0),
    ("relativeCreated", .float 0), ("thread", .int 0), ("threadName", .text "MainThread"),
    ("process", .int 0), ("processName", .text "MainProcess"), ("taskName", .absent)]
    ++ (r.operation.map fun operation => ("operation", .text operation)).toList

/-- What a field is supplied with: what its name stands for in the record, or without a name what is
left for such a field. -/
def lookUp (fields : List (String × Value)) (unnamed : Option Value) :
    Option String → Except Mishap (Option Value)
  | none => .ok unnamed
  | some name =>
    match fields.find? fun (field, _) => field = name with
    | some (_, v) => .ok (some v)
    | none => .error .malformed

/-- The text of the parts of a layout. A field without a name takes the record itself, and nothing
after another field. -/
def textOf (fields : List (String × Value)) :
    Option Value → List TemplatePart → Except Mishap String
  | _, [] => .ok ""
  | _, .unfinished :: _ => .error .malformed
  | unnamed, .literal c :: parts => do
    let rest ← textOf fields unnamed parts
    pure (String.singleton c ++ rest)
  | unnamed, .field name form :: parts => do
    let supply ← lookUp fields unnamed name
    let text ← form.render supply
    let rest ← textOf fields none parts
    pure (text ++ rest)

/-- The line of a record whose level is written as given. A message that cannot be written makes no
line. -/
def lineWith (t : Template) (levelName : String) (r : LogRecord) : Except Mishap String :=
  match r.message.get with
  | none => .error .malformed
  | some message =>
    let fields := attributes levelName message r
    textOf fields (some (.dict (fields.map fun (name, v) => (.text name, v)))) t.parts

def line (t : Template) (r : LogRecord) : Except Mishap String := t.lineWith r.level.name r

/-- The sequence that starts a colour on a terminal, for the levels that have one. -/
def colour? (l : Level) : Option String :=
  if l = .debug then some "\x1b[94m"
  else if l = .info then some "\x1b[92m"
  else if l = .warning then some "\x1b[93m"
  else if l = .error then some "\x1b[91m"
  else if l = .critical then some "\x1b[91m\x1b[1m"
  else none

def colourEnd : String := "\x1b[0m"

def colouredName (l : Level) : String :=
  match colour? l with
  | some start => start ++ l.name ++ colourEnd
  | none => l.name

def colouredLine (t : Template) (r : LogRecord) : Except Mishap String :=
  t.lineWith (colouredName r.level) r

end Template

end FuzzyAlgebra

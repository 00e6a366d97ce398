import FuzzyAlgebra.Binary64.Reading
import FuzzyAlgebra.Calendar
import FuzzyAlgebra.Text.Reader
import FuzzyAlgebra.Toml.Value

/-!
# Keys and scalars of TOML documents

Each reader takes a text from the front of the characters and returns what is left; `none` means
that the text is not well formed. Lines end with a line feed alone. A number in base ten may also be
too long.
-/

namespace FuzzyAlgebra.Toml

open Text (Reader expect isSpaceOrTab)

/-- Why a text is no document. -/
inductive Flaw where
  /-- The text is not well formed. -/
  | malformed
  /-- A whole number has more digits than are read. -/
  | oversized
  deriving DecidableEq, Repr

/-- The outcome of reading: the first flaw of the text counts. -/
abbrev Outcome (α : Type) : Type := Except Flaw α

/-- What gives the table of a document, or the flaw of its text. -/
abbrev TableReader : Type := String → Outcome Table

def orMalformed : Option α → Outcome α
  | some a => .ok a
  | none => .error .malformed

def skipBlanks (cs : List Char) : List Char := cs.dropWhile isSpaceOrTab

/-- A control character, which may not stand in a text or a comment, tabs apart. -/
def isControl (c : Char) : Bool := (c.toNat < 32 && c ≠ '\t') || c.toNat = 127

def isControlInLines (c : Char) : Bool := isControl c && c ≠ '\n'

/-! ### Texts -/

/-- Where a reader is inside a quoted text: in the text, or in the gap after a backslash at the end
of a line, before or after the end of that line. -/
inductive QuoteState where
  | inText
  | inGap (lineEnded : Bool)
  deriving DecidableEq

namespace QuoteState

def rank : QuoteState → Nat
  | inText => 0
  | inGap _ => 1

end QuoteState

def escaped? (c : Char) : Option Char :=
  match c with
  | 'b' => some '\x08'
  | 't' => some '\t'
  | 'n' => some '\n'
  | 'f' => some '\x0c'
  | 'r' => some '\r'
  | 'e' => some '\x1b'
  | '"' => some '"'
  | '\\' => some '\\'
  | _ => none

def hexNumber? (cs : List Char) : Option Nat :=
  cs.foldlM (fun n c => (Text.hexDigit? c).map fun d => 16 * n + d) 0

def charOf? (n : Nat) : Option Char := if n.isValidChar then some (Char.ofNat n) else none

def hexChar? (digits : List Char) : Option Char := (hexNumber? digits).bind charOf?

/-- The rest of a quoted text up to its quote, or to three quotes if it may have several lines. -/
def readQuoted (lines : Bool) : QuoteState → Reader (List Char)
  | _, [] => none
  | .inGap lineEnded, c :: cs =>
    if c = '\n' then readQuoted lines (.inGap true) cs
    else if isSpaceOrTab c then readQuoted lines (.inGap lineEnded) cs
    else if lineEnded then readQuoted lines .inText (c :: cs)
    else none
  | .inText, '"' :: cs =>
    if !lines then some ([], cs)
    else if cs.take 2 = ['"', '"'] then some ([], cs.drop 2)
    else (readQuoted lines .inText cs).map fun (text, rest) => ('"' :: text, rest)
  | .inText, '\\' :: 'x' :: a :: b :: cs => do
    let x ← hexChar? [a, b]
    let (text, rest) ← readQuoted lines .inText cs
    pure (x :: text, rest)
  | .inText, '\\' :: 'u' :: a :: b :: c :: d :: cs => do
    let x ← hexChar? [a, b, c, d]
    let (text, rest) ← readQuoted lines .inText cs
    pure (x :: text, rest)
  | .inText, '\\' :: 'U' :: a :: b :: c :: d :: e :: f :: g :: h :: cs => do
    let x ← hexChar? [a, b, c, d, e, f, g, h]
    let (text, rest) ← readQuoted lines .inText cs
    pure (x :: text, rest)
  | .inText, '\\' :: c :: cs =>
    if lines && (isSpaceOrTab c || c = '\n') then readQuoted lines (.inGap (c = '\n')) cs
    else do
      let x ← escaped? c
      let (text, rest) ← readQuoted lines .inText cs
      pure (x :: text, rest)
  | .inText, c :: cs =>
    if c = '\\' then none
    else if if lines then isControlInLines c else isControl c then none
    else (readQuoted lines .inText cs).map fun (text, rest) => (c :: text, rest)
termination_by s cs => (cs.length, s.rank)
decreasing_by
  all_goals simp_wf
  all_goals first
    | exact Prod.Lex.right _ (by simp [QuoteState.rank])
    | exact Prod.Lex.left _ _ (by simp +arith)

def readLiteral : Reader (List Char)
  | [] => none
  | '\'' :: cs => some ([], cs)
  | c :: cs =>
    if isControl c then none
    else (readLiteral cs).map fun (text, rest) => (c :: text, rest)

/-- The rest of a literal text of several lines, up to three quotes. -/
def readLiteralLines : Reader (List Char)
  | [] => none
  | '\'' :: '\'' :: '\'' :: cs => some ([], cs)
  | c :: cs =>
    if isControlInLines c then none
    else (readLiteralLines cs).map fun (text, rest) => (c :: text, rest)

/-- Up to two more quotes right after the three that end a text belong to the text. -/
def extraQuotes (quote : Char) (text rest : List Char) : String × List Char :=
  match rest with
  | a :: b :: more =>
    if a = quote ∧ b = quote then (String.ofList (text ++ [quote, quote]), more)
    else if a = quote then (String.ofList (text ++ [quote]), b :: more)
    else (String.ofList text, rest)
  | [a] =>
    if a = quote then (String.ofList (text ++ [quote]), []) else (String.ofList text, rest)
  | [] => (String.ofList text, [])

/-- A line feed right after the opening quotes does not count. -/
def dropFirstLineFeed : List Char → List Char
  | '\n' :: cs => cs
  | cs => cs

def readText : Reader String
  | '"' :: '"' :: '"' :: cs => do
    let (text, rest) ← readQuoted true .inText (dropFirstLineFeed cs)
    pure (extraQuotes '"' text rest)
  | '"' :: cs => do
    let (text, rest) ← readQuoted false .inText cs
    pure (String.ofList text, rest)
  | '\'' :: '\'' :: '\'' :: cs => do
    let (text, rest) ← readLiteralLines (dropFirstLineFeed cs)
    pure (extraQuotes '\'' text rest)
  | '\'' :: cs => do
    let (text, rest) ← readLiteral cs
    pure (String.ofList text, rest)
  | _ => none

/-! ### Keys -/

def isKeyChar (c : Char) : Bool := c.isAlphanum || c = '-' || c = '_'

def startsKey (c : Char) : Bool := isKeyChar c || c = '"' || c = '\''

def readKeyPart : Reader String
  | '"' :: cs => do
    let (text, rest) ← readQuoted false .inText cs
    pure (String.ofList text, rest)
  | '\'' :: cs => do
    let (text, rest) ← readLiteral cs
    pure (String.ofList text, rest)
  | cs =>
    match cs.takeWhile isKeyChar with
    | [] => none
    | word => some (String.ofList word, cs.dropWhile isKeyChar)

/-- The parts of a key that follow its first part, at most `fuel` of them. -/
def readKeyRest : Nat → Reader (List String)
  | fuel + 1, '.' :: cs => do
    let (part, rest) ← readKeyPart (skipBlanks cs)
    let (parts, rest) ← readKeyRest fuel (skipBlanks rest)
    pure (part :: parts, rest)
  | _, cs => some ([], cs)

/-- A key: its parts are separated by points, with blanks allowed around them. -/
def readKey (cs : List Char) : Option (List String × List Char) := do
  let (part, rest) ← readKeyPart cs
  let (parts, rest) ← readKeyRest cs.length (skipBlanks rest)
  pure (part :: parts, rest)

/-! ### Numbers -/

/-- Digits, with single underscores between them, after a first digit. -/
def moreDigits (isDigit : Char → Bool) : List Char → List Char × List Char
  | '_' :: c :: cs =>
    if isDigit c then
      let (digits, rest) := moreDigits isDigit cs
      (c :: digits, rest)
    else ([], '_' :: c :: cs)
  | c :: cs =>
    if isDigit c then
      let (digits, rest) := moreDigits isDigit cs
      (c :: digits, rest)
    else ([], c :: cs)
  | [] => ([], [])

def readDigits (isDigit : Char → Bool) : Reader (List Char)
  | c :: cs =>
    if isDigit c then
      let (digits, rest) := moreDigits isDigit cs
      some (c :: digits, rest)
    else none
  | [] => none

def inBase (base : Nat) (digits : List Char) : Nat :=
  digits.foldl (fun n c => base * n + (Text.hexDigit? c).getD 0) 0

def readBased : Reader Value
  | '0' :: mark :: cs =>
    let base? : Option (Nat × (Char → Bool)) := match mark with
      | 'x' => some (16, fun c => (Text.hexDigit? c).isSome)
      | 'o' => some (8, fun c => '0' ≤ c ∧ c ≤ '7')
      | 'b' => some (2, fun c => c = '0' || c = '1')
      | _ => none
    do
      let (base, isDigit) ← base?
      let (digits, rest) ← readDigits isDigit cs
      pure (.int (inBase base digits), rest)
  | _ => none

/-- The digits before the point: zero alone, or a number that does not start with zero. -/
def readWhole : Reader (List Char)
  | '0' :: cs => some (['0'], cs)
  | cs => readDigits Char.isDigit cs

def readPlaces (cs : List Char) : List Char × List Char :=
  match cs with
  | '.' :: rest => (readDigits Char.isDigit rest).getD ([], cs)
  | cs => ([], cs)

def readExponent (cs : List Char) : Option Int × List Char :=
  match cs with
  | c :: rest =>
    if c = 'e' ∨ c = 'E' then
      let (negative, rest) := Binary64.takeSign rest
      match readDigits Char.isDigit rest with
      | some (digits, rest) =>
        let n := Binary64.digitsValue digits
        (some (if negative then -(n : Int) else n), rest)
      | none => (none, cs)
    else (none, cs)
  | [] => (none, [])

def readDecimal (cs : List Char) : Outcome (Value × List Char) := do
  let (negative, unsigned) := Binary64.takeSign cs
  let (whole, rest) ← orMalformed (readWhole unsigned)
  let (places, rest) := readPlaces rest
  let (exponent, rest) := readExponent rest
  if places.isEmpty && exponent.isNone then
    if Text.mostDigits < whole.length then .error .oversized
    else
      let n : Int := Binary64.digitsValue whole
      pure (.int (if negative then -n else n), rest)
  else
    let x := Binary64.ofDecimal negative (Binary64.digitsValue (whole ++ places))
      (exponent.getD 0 - places.length)
    pure (.float x, rest)

def readSpecial (cs : List Char) : Option (Value × List Char) :=
  let (negative, unsigned) := Binary64.takeSign cs
  match unsigned with
  | 'i' :: 'n' :: 'f' :: rest => some (.float (.infinite negative), rest)
  | 'n' :: 'a' :: 'n' :: rest => some (.float .nan, rest)
  | _ => none

/-! ### Moments -/

def readTwo : Reader Nat
  | a :: b :: cs =>
    if a.isDigit && b.isDigit then some (Binary64.digitsValue [a, b], cs) else none
  | _ => none

def readTwoIn (low high : Nat) (cs : List Char) : Option (Nat × List Char) := do
  let (n, rest) ← readTwo cs
  if low ≤ n ∧ n ≤ high then pure (n, rest) else none

/-- The rest after the seconds of a time, if they are given. -/
def skipSeconds (cs : List Char) : List Char :=
  let seconds := do
    let (_, rest) ← expect ':' cs
    let (_, rest) ← readTwoIn 0 59 rest
    match rest with
    | '.' :: c :: more => if c.isDigit then pure (more.dropWhile Char.isDigit) else pure rest
    | _ => pure rest
  seconds.getD cs

def skipTime (cs : List Char) : Option (List Char) := do
  let (_, rest) ← readTwoIn 0 23 cs
  let (_, rest) ← expect ':' rest
  let (_, rest) ← readTwoIn 0 59 rest
  pure (skipSeconds rest)

/-- The rest after the distance to universal time, if it is given. -/
def skipZone (cs : List Char) : List Char :=
  match cs with
  | 'Z' :: rest => rest
  | 'z' :: rest => rest
  | c :: rest =>
    if c = '+' ∨ c = '-' then
      let zone := do
        let (_, rest) ← readTwoIn 0 23 rest
        let (_, rest) ← expect ':' rest
        let (_, rest) ← readTwoIn 0 59 rest
        pure rest
      zone.getD cs
    else cs
  | [] => []

def skipDate (cs : List Char) : Option (Bool × List Char) := do
  let (century, rest) ← readTwo cs
  let (years, rest) ← readTwo rest
  let (_, rest) ← expect '-' rest
  let (month, rest) ← readTwoIn 1 12 rest
  let (_, rest) ← expect '-' rest
  let (day, rest) ← readTwoIn 1 31 rest
  let year := 100 * century + years
  pure (0 < year && day ≤ Calendar.daysInMonth year month, rest)

def skipMoment (cs : List Char) : Option (Bool × List Char) := do
  let (valid, rest) ← skipDate cs
  match rest with
  | c :: more =>
    if c = 'T' ∨ c = 't' ∨ c = ' ' then
      match skipTime more with
      | some rest => pure (valid, skipZone rest)
      | none => pure (valid, rest)
    else pure (valid, rest)
  | [] => pure (valid, rest)

def consumed (cs rest : List Char) : String := String.ofList (cs.take (cs.length - rest.length))

/-- A number or a moment. A text that looks like a date but names no day is not well formed. -/
def readNumber (cs : List Char) : Outcome (Value × List Char) :=
  match skipMoment cs with
  | some (valid, rest) =>
    if valid then .ok (.moment (consumed cs rest), rest) else .error .malformed
  | none =>
    match skipTime cs with
    | some rest => .ok (.moment (consumed cs rest), rest)
    | none =>
      match readBased cs with
      | some read => .ok read
      | none =>
        match readSpecial cs with
        | some read => .ok read
        | none => readDecimal cs

end FuzzyAlgebra.Toml

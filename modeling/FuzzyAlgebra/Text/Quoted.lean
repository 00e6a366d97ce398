import FuzzyAlgebra.Text.Printable
import FuzzyAlgebra.Text.Surrogate

/-!
# Quoted text

Text in messages stands in single quotes, or in double quotes when it holds a single quote and no
double one. The backslash and the quote in use are escaped, and so is every character that is not
printable.
-/

namespace FuzzyAlgebra.Text

def hexDigit (n : Nat) : Char :=
  if n < 10 then Char.ofNat (48 + n) else Char.ofNat (87 + n)

def hex : Nat → Nat → List Char
  | 0, _ => []
  | width + 1, n => hex width (n / 16) ++ [hexDigit (n % 16)]

def escapeCode (code : Nat) : List Char :=
  if code < 0x100 then '\\' :: 'x' :: hex 2 code
  else if code < 0x10000 then '\\' :: 'u' :: hex 4 code
  else '\\' :: 'U' :: hex 8 code

def escape (quote c : Char) : List Char :=
  if let some code := surrogate? c then '\\' :: 'u' :: hex 4 code
  else if c = quote ∨ c = '\\' then ['\\', c]
  else if c = '\n' then ['\\', 'n']
  else if c = '\r' then ['\\', 'r']
  else if c = '\t' then ['\\', 't']
  else if isPrintable c then [c]
  else escapeCode c.toNat

def quoteFor (cs : List Char) : Char :=
  if cs.contains '\'' && !cs.contains '"' then '"' else '\''

def quoted (s : String) : String :=
  let cs := s.toList
  let quote := quoteFor cs
  String.ofList (quote :: cs.flatMap (escape quote) ++ [quote])

/-- A text in which every character but the ASCII ones is escaped. -/
def asciiOnly (s : String) : String :=
  String.ofList (s.toList.flatMap fun c => if c.toNat < 128 then [c] else escapeCode c.toNat)

/-- Bytes in quotes after a letter; those that are no printable ASCII are escaped. -/
def quotedBytes (content : List UInt8) : String :=
  let cs := content.map fun b => Char.ofNat b.toNat
  let quote := quoteFor cs
  let escapeByte (c : Char) : List Char :=
    if c.toNat < 128 then escape quote c else '\\' :: 'x' :: hex 2 c.toNat
  String.ofList ('b' :: quote :: cs.flatMap escapeByte ++ [quote])

end FuzzyAlgebra.Text

import FuzzyAlgebra.Binary64.Reading
import FuzzyAlgebra.Value.Order
import FuzzyAlgebra.Yaml.Tag

/-!
# Numbers in YAML texts

The number that a scalar writes. A scalar that was given the tag of a number may hold any text, so
that reading can go wrong.
-/

namespace FuzzyAlgebra.Yaml

/-- A sign and what follows it, underscores removed; there has to be a first character. -/
def signedRest (cs : List Char) : Except Mishap (Bool × List Char) :=
  let cs := cs.filter (· ≠ '_')
  if cs.isEmpty then .error .outOfBounds else .ok (Binary64.takeSign cs)

def applySign (negative : Bool) (n : Int) : Int := if negative then -n else n

/-! ### Whole numbers -/

def digitOf? (base : Nat) (c : Char) : Option Nat :=
  (Text.hexDigit? c).bind fun d => if d < base then some d else none

def baseLetter (base : Nat) : Option Char :=
  if base = 2 then some 'b'
  else if base = 8 then some 'o'
  else if base = 16 then some 'x'
  else none

def dropBase (base : Nat) (cs : List Char) : List Char :=
  match cs with
  | '0' :: c :: rest => if baseLetter base = some c.toLower then rest else cs
  | cs => cs

def wholeIn (base : Nat) (cs : List Char) : Except Mishap Int :=
  let (negative, cs) := Binary64.takeSign (Text.trimBoth Text.isWhiteSpace (cs.map Text.plainDigit))
  let digits := dropBase base cs
  if digits.isEmpty || (baseLetter base = none && Text.mostDigits < digits.length) then
    .error .malformed
  else
    match digits.foldlM (fun n c => (digitOf? base c).map fun d => base * n + d) 0 with
    | some n => .ok (applySign negative n)
    | none => .error .malformed

/-- The whole number of a scalar: the front of the text tells the base, and colons separate the
digits of base sixty. -/
def intOf (text : String) : Except Mishap Int := do
  let (negative, cs) ← signedRest text.toList
  let n ← match cs with
    | [] => .error .outOfBounds
    | ['0'] => pure 0
    | '0' :: 'b' :: rest => wholeIn 2 rest
    | '0' :: 'x' :: rest => wholeIn 16 rest
    | '0' :: _ => wholeIn 8 cs
    | cs => do
      let digits ← (Tag.colonParts cs).mapM (wholeIn 10)
      pure (digits.foldl (fun n d => 60 * n + d) 0)
  pure (applySign negative n)

/-! ### Numbers with a point -/

def numberOf (cs : List Char) : Except Mishap Binary64 :=
  match Binary64.ofText? (String.ofList cs) with
  | some x => .ok x
  | none => .error .malformed

def sumSixties (unit : Nat) (sum : Binary64) : List Binary64 → Except Mishap Binary64
  | [] => .ok sum
  | digit :: rest => do
    let scale ← Value.bounded (Binary64.ofInt unit)
    sumSixties (60 * unit) (sum + digit * scale) rest

/-- Whether a text without its sign is the word for what is no number. -/
def isNaNWord (cs : List Char) : Bool := String.ofList cs = ".nan"

/-- Whether a scalar writes what is no number with the word for it. -/
def writesNaN (text : String) : Bool :=
  match signedRest (Text.lower text).toList with
  | .ok (_, cs) => isNaNWord cs
  | .error _ => false

def floatOf (text : String) : Except Mishap Binary64 := do
  let (negative, cs) ← signedRest (Text.lower text).toList
  let x ←
    if String.ofList cs = ".inf" then pure (Binary64.infinite false)
    else if isNaNWord cs then pure .nan
    else if cs.contains ':' then do
      let digits ← (Tag.colonParts cs).mapM numberOf
      sumSixties 1 0 digits.reverse
    else numberOf cs
  pure (if negative then -x else x)

end FuzzyAlgebra.Yaml

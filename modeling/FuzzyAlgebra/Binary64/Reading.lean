import FuzzyAlgebra.Binary64.Basic
import FuzzyAlgebra.Text.Blank
import FuzzyAlgebra.Text.Digit
import FuzzyAlgebra.Text.Lower

/-!
# Reading numbers

The number nearest to a decimal text. Two readers share one grammar: the general one takes digits of
every script and underscores between digits, the schema one takes ASCII digits only and is looser
about underscores.
-/

namespace FuzzyAlgebra.Binary64

def digitsValue (cs : List Char) : Nat :=
  cs.foldl (fun n c => 10 * n + (c.toNat - 48)) 0

/-- The number nearest to `± digits * 10 ^ scale`. A scale that takes every digit past the greatest
or below the least number is not computed. -/
def ofDecimal (negative : Bool) (digits : Nat) (scale : Int) : Binary64 :=
  if digits = 0 then finite negative 0 representable_zero
  else
    let top : Int := (toString digits).length + scale
    if 400 < top then infinite negative
    else if top < -400 then finite negative 0 representable_zero
    else if scale < 0 then ofRatio negative (digits * unitsPerOne) (10 ^ scale.natAbs)
    else ofRatio negative (digits * 10 ^ scale.natAbs * unitsPerOne) 1

def takeSign : List Char → Bool × List Char
  | '-' :: cs => (true, cs)
  | '+' :: cs => (false, cs)
  | cs => (false, cs)

/-- An exponent after its mark; nothing is the exponent zero. -/
def exponent? : List Char → Option Int
  | [] => some 0
  | c :: cs =>
    if c = 'e' ∨ c = 'E' then
      let (negative, digits) := takeSign cs
      if digits.isEmpty || !digits.all Char.isDigit then none
      else some (if negative then -(digitsValue digits : Int) else digitsValue digits)
    else none

def magnitude? (negative : Bool) (cs : List Char) : Option Binary64 :=
  let whole := cs.takeWhile Char.isDigit
  let rest := cs.dropWhile Char.isDigit
  let (places, rest) := match rest with
    | '.' :: rest => (rest.takeWhile Char.isDigit, rest.dropWhile Char.isDigit)
    | rest => ([], rest)
  if whole.isEmpty && places.isEmpty then none
  else (exponent? rest).map fun e =>
    ofDecimal negative (digitsValue (whole ++ places)) (e - places.length)

/-- A number in ASCII: a sign, then digits or one of the words. -/
def ofPlain? (cs : List Char) : Option Binary64 :=
  let (negative, cs) := takeSign cs
  let word := Text.lower (String.ofList cs)
  if word = "inf" ∨ word = "infinity" then some (infinite negative)
  else if word = "nan" then some nan
  else magnitude? negative cs

/-- Underscores removed, if each stands between two digits; `previous` is the character before. -/
def dropUnderscores (previous : Option Char) : List Char → Option (List Char)
  | [] => some []
  | '_' :: rest =>
    match previous, rest with
    | some a, b :: _ =>
      if a.isDigit && b.isDigit then dropUnderscores (some '_') rest else none
    | _, _ => none
  | c :: rest => (dropUnderscores (some c) rest).map (c :: ·)

def ofText? (s : String) : Option Binary64 :=
  let cs := Text.trimBoth Text.isWhiteSpace (s.toList.map Text.plainDigit)
  (dropUnderscores none cs).bind ofPlain?

def hasDoubleUnderscore : List Char → Bool
  | '_' :: '_' :: _ => true
  | _ :: rest => hasDoubleUnderscore rest
  | [] => false

/-- The number of a text in a schema: a plain number with white space around it, or one that is
plain once its underscores are removed. -/
def ofSchemaText? (s : String) : Option Binary64 :=
  let cs := s.toList
  match ofPlain? (Text.trimBoth Text.isWhiteSpace cs) with
  | some x => some x
  | none =>
    if cs.head? = some '_' || cs.getLast? = some '_' || !cs.contains '_' || hasDoubleUnderscore cs
    then none
    else ofPlain? (cs.filter (· ≠ '_'))

end FuzzyAlgebra.Binary64

import FuzzyAlgebra.Value.Conversion

/-!
# Written fields

The form of a field in a layout: a letter for the kind of text, flags for the sign, for the base and
for what fills the field, a least width and a precision. A star in place of a number leaves the
number to a further value. A field is supplied with one value only, which such a star uses up.
-/

namespace FuzzyAlgebra

/-- A width or a precision. -/
inductive Extent where
  | none
  | count (n : Nat)
  /-- Left to a further value. -/
  | supplied
  deriving DecidableEq, Repr

def Extent.number? : Extent → Option Nat
  | count n => some n
  | _ => Option.none

/-- How a field is written. -/
structure FieldForm where
  /-- Blanks are added on the right. -/
  left : Bool
  /-- A sign is always written. -/
  signed : Bool
  /-- A blank stands where a plus sign could. -/
  spaced : Bool
  /-- The base of a number and its point are always written. -/
  alternate : Bool
  /-- Zeros are added after the sign of a number. -/
  zeroFilled : Bool
  width : Extent
  precision : Extent
  /-- The kind of text, if the layout does not end before it. -/
  letter? : Option Char
  deriving DecidableEq, Repr

namespace FieldForm

def leastWidth (f : FieldForm) : Nat := f.width.number?.getD 0

def blanks (n : Nat) : String := String.ofList (List.replicate n ' ')

def padded (f : FieldForm) (s : String) : String :=
  let fill := blanks (f.leastWidth - s.length)
  if f.left then s ++ fill else fill ++ s

/-- A text cut to the precision, with blanks up to the width. -/
def texted (f : FieldForm) (s : String) : String :=
  f.padded (match f.precision.number? with
    | some count => String.ofList (s.toList.take count)
    | none => s)

/-! ### Numbers -/

def signText (f : FieldForm) (negative : Bool) : String :=
  if negative then "-" else if f.signed then "+" else if f.spaced then " " else ""

/-- Sign, mark of the base and digits, filled up to the width. -/
def assembled (f : FieldForm) (negative : Bool) (mark digits : String) : String :=
  let front := f.signText negative ++ mark
  if f.zeroFilled && !f.left then
    front ++ Binary64.zeros (f.leastWidth - (front.length + digits.length)) ++ digits
  else f.padded (front ++ digits)

def baseOf (letter : Char) : Nat × String :=
  if letter = 'o' then (8, "0o")
  else if letter = 'x' then (16, "0x")
  else if letter = 'X' then (16, "0X")
  else (10, "")

def whole (f : FieldForm) (letter : Char) (n : Int) : String :=
  let (base, mark) := baseOf letter
  let digits := String.ofList (Nat.toDigits base n.natAbs)
  let digits := if letter = 'X' then digits.toUpper else digits
  f.assembled (decide (n < 0)) (if f.alternate then mark else "")
    (Binary64.padLeft (f.precision.number?.getD 0) digits)

/-- A text of digits with a point, which goes before an exponent. -/
def withPoint (s : String) : String :=
  let front := s.toList.takeWhile (· ≠ 'e')
  if front.contains '.' then s
  else String.ofList (front ++ '.' :: s.toList.dropWhile (· ≠ 'e'))

/-- A text of digits without zeros at the end of the decimal places, and without a point that
nothing follows. -/
def trimmed (s : String) : String :=
  let front := s.toList.takeWhile (· ≠ 'e')
  if front.contains '.' then
    let kept := (front.reverse.dropWhile (· = '0')).dropWhile (· = '.')
    String.ofList (kept.reverse ++ s.toList.dropWhile (· ≠ 'e'))
  else s

/-- A number of a count of significant digits, positional unless its exponent is small or does not
fit into them. -/
def general (f : FieldForm) (count : Nat) (x : Binary64) : String :=
  match x with
  | .finite _ units _ =>
    let e := if units = 0 then 0 else (Binary64.significant units count).exponent
    let text :=
      if -4 ≤ e ∧ e < count then x.renderFixed (count - 1 - e).toNat
      else x.renderSignificant count
    if f.alternate then withPoint text else trimmed text
  | x => x.render

def digitsOf (f : FieldForm) (letter : Char) (x : Binary64) : String :=
  let count := f.precision.number?.getD 6
  let point (s : String) : String := if f.alternate && x.isFinite then withPoint s else s
  let text :=
    if letter.toLower = 'e' then point (x.renderSignificant (count + 1))
    else if letter.toLower = 'f' then point (x.renderFixed count)
    else f.general (max count 1) x
  if letter.isUpper then text.toUpper else text

def isNegative : Binary64 → Bool
  | .finite negative _ _ => negative
  | .infinite negative => negative
  | .nan => false

def number (f : FieldForm) (letter : Char) (x : Binary64) : String :=
  f.assembled (isNegative x) "" (f.digitsOf letter (if isNegative x then -x else x))

/-! ### Values -/

/-- The character of a code point; a surrogate has its stand-in. -/
def charOf (n : Int) : Except Mishap String :=
  if n < 0 ∨ 0x110000 ≤ n then .error .tooLarge
  else if 0xd800 ≤ n ∧ n < 0xe000 then .ok (String.singleton (Text.standIn n.toNat))
  else .ok (String.singleton (Char.ofNat n.toNat))

def character : Value → Except Mishap String
  | .text s => if s.length = 1 then .ok s else .error .wrongType
  | v =>
    match v.count? with
    | some n => charOf n
    | none => .error .wrongType

/-- A value as a whole number for a letter: only in base ten a fraction is dropped. -/
def wholeOf (letter : Char) (v : Value) : Except Mishap Int :=
  match v with
  | .float x => if (baseOf letter).1 = 10 then Value.truncated x else .error .wrongType
  | v => (v.count?.map Except.ok).getD (.error .wrongType)

def numberOf (v : Value) : Except Mishap Binary64 :=
  if v.isText then .error .wrongType else v.toBinary64

def mostFilling : Nat := 10 ^ 8

def write (f : FieldForm) (letter : Char) (v : Value) : Except Mishap String :=
  if mostFilling < max f.leastWidth (f.precision.number?.getD 0) then .error .noMemory
  else if letter = 's' then .ok (f.texted v.asText)
  else if letter = 'r' then .ok (f.texted v.display)
  else if letter = 'a' then .ok (f.texted (Text.asciiOnly v.display))
  else if letter = 'c' then (character v).map f.padded
  else if "diuoxX".toList.contains letter then (wholeOf letter v).map (f.whole letter)
  else if "eEfFgG".toList.contains letter then (numberOf v).map (f.number letter)
  else .error .malformed

/-- What is left of a value when an extent has been settled: a star takes a whole number up to
`most`, and a written count is no greater. -/
def settle (most : Nat) (supply : Option Value) : Extent → Except Mishap (Option Value)
  | .none => .ok supply
  | .count n => if most < n then .error .malformed else .ok supply
  | .supplied =>
    match supply with
    | some (.int n) => if most < n.natAbs then .error .tooLarge else .ok none
    | _ => .error .wrongType

/-- A field that is supplied with a value, or with none. Width, precision and letter are taken in
turn, and the first fault counts. -/
def render (f : FieldForm) (supply : Option Value) : Except Mishap String := do
  let supply ← settle (2 ^ 63 - 1) supply f.width
  let supply ← settle (2 ^ 31 - 1) supply f.precision
  match f.letter?, supply with
  | some letter, some v => f.write letter v
  | some _, none => .error .wrongType
  | none, _ => .error .malformed

end FieldForm

end FuzzyAlgebra

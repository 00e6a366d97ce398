import FuzzyAlgebra.Value.Order
import FuzzyAlgebra.Value.Printer

/-!
# Conversions

What the types make of a value when they are called with it: whole numbers, truth values, texts,
sequences, dictionaries, bytes and complex numbers.
-/

namespace FuzzyAlgebra

namespace Value

/-! ### Whole numbers and truth values -/

def truncated : Binary64 → Except Mishap Int
  | .nan => .error .malformed
  | .infinite _ => .error .tooLarge
  | .finite negative units _ => .ok (Binary64.signed negative (units / Binary64.unitsPerOne))

def mostZeros : Nat := 2 ^ 27

def truncatedDecimal : Decimal → Except Mishap Int
  | .nan .. => .error .malformed
  | .infinite _ => .error .tooLarge
  | .finite negative digits scale =>
    if digits = 0 ∨ (Quantity.digitCount digits) + scale ≤ 0 then .ok 0
    else if scale < 0 then .ok (Binary64.signed negative (digits / 10 ^ scale.natAbs))
    else if mostZeros < scale then .error .noMemory
    else .ok (Binary64.signed negative (digits * 10 ^ scale.natAbs))

/-- The whole number of a text: digits with single underscores between them, blanks around
allowed. -/
def wholeOfText (s : String) : Except Mishap Int :=
  let cs := Text.trimBoth Text.isWhiteSpace (s.toList.map Text.plainDigit)
  let (negative, unsigned) := Binary64.takeSign cs
  match Binary64.dropUnderscores none unsigned with
  | none => .error .malformed
  | some digits =>
    if digits.isEmpty || !digits.all Char.isDigit || Text.mostDigits < digits.length then
      .error .malformed
    else .ok (Binary64.signed negative (Binary64.digitsValue digits))

def toWhole : Value → Except Mishap Int
  | bool b => .ok (Numeral.ofTruth b)
  | int n => .ok n
  | float x => truncated x
  | degree d => truncated d.number
  | text s => wholeOfText s
  | fraction num den => .ok (Int.tdiv num den)
  | decimal d => truncatedDecimal d
  | scalar (.float64 x) => truncated x
  | scalar (.float32 x) => truncated x
  | scalar (.int64 n) => .ok n
  | scalar (.uint64 n) => .ok n
  | scalar (.bool b) => .ok (Numeral.ofTruth b)
  | _ => .error .wrongType

/-- Whether a value counts as true: numbers but zero do, sequences but empty ones, and other values,
but for the absent one. An array of one item counts as the item; any other array as neither. -/
def truth : Value → Except Mishap Bool
  | absent => .ok false
  | text s => .ok !s.isEmpty
  | bytes content => .ok !content.isEmpty
  | list items => .ok !items.isEmpty
  | tuple items => .ok !items.isEmpty
  | set items => .ok !items.isEmpty
  | dict entries => .ok !entries.isEmpty
  | array _ _ [item] => item.truth
  | array .. => .error .malformed
  | v =>
    match v.quantity? with
    | some q => .ok !q.isZero
    | none => .ok true

/-! ### Sequences and dictionaries -/

/-- The items of a value that can be gone through: characters of a text, keys of a dictionary. -/
def iterate : Value → Except Mishap (List Value)
  | text s => .ok (s.toList.map fun c => text (String.ofList [c]))
  | bytes content => .ok (content.map fun b => int b.toNat)
  | list items => .ok items
  | tuple items => .ok items
  | set items => .ok items
  | dict entries => .ok (entries.map Prod.fst)
  | array kind shape items => .ok (rowsOf kind shape items)
  | _ => .error .wrongType

def toEntry (v : Value) : Except Mishap (Value × Value) := do
  match ← v.iterate with
  | [key, value] => if key.isHashable then pure (key, value) else .error .wrongType
  | _ => .error .malformed

/-- A dictionary of entries given one after the other, up to the first that is none. -/
def toDict (v : Value) : Except Mishap Value :=
  match v with
  | dict entries => .ok (dict entries)
  | v => do pure (ofEntries (← (← v.iterate).mapM toEntry))

def toByte (v : Value) : Except Mishap UInt8 :=
  match v.count? with
  | some n => if 0 ≤ n ∧ n < 256 then .ok (UInt8.ofNat n.toNat) else .error .malformed
  | none => .error .wrongType

/-- So many zero bytes, or the bytes of a sequence of whole numbers. -/
def toBytes (v : Value) : Except Mishap Value :=
  match v.count?, v with
  | some n, _ =>
    if n < 0 ∧ Numeral.wrap n = n then .error .malformed
    else (repetitions false 1 n).map fun n => bytes (List.replicate n 0)
  | none, text _ => .error .wrongType
  | none, v => do pure (bytes (← (← v.iterate).mapM toByte))

/-! ### Complex numbers -/

def partText (x : Binary64) : String :=
  let s := x.render
  if s.endsWith ".0" then (s.dropEnd 2).toString else s

def isNegative : Binary64 → Bool
  | .finite negative _ _ => negative
  | .infinite negative => negative
  | .nan => false

def complexOf (re im : Binary64) : Value :=
  let im' := partText im ++ "j"
  if re = Binary64.zero then object "complex" (Thunk.pure (some im')) none
  else
    let sign := if isNegative im then "" else "+"
    object "complex" (Thunk.pure (some ("(" ++ partText re ++ sign ++ im' ++ ")"))) none

def wordAtFront? (cs : List Char) : Option (List Char × List Char) :=
  ["infinity", "inf", "nan"].findSome? fun word =>
    let front := cs.take word.length
    if Text.lower (String.ofList front) = word then some (front, cs.drop word.length) else none

def exponentAtFront (cs : List Char) : List Char :=
  match cs with
  | e :: rest =>
    let sign := match rest with
      | '+' :: _ => ['+']
      | '-' :: _ => ['-']
      | _ => []
    let digits := (rest.drop sign.length).takeWhile Char.isDigit
    if (e = 'e' || e = 'E') && !digits.isEmpty then e :: sign ++ digits else []
  | [] => []

def numberAtFront? (cs : List Char) : Option (Binary64 × List Char) :=
  let sign := match cs with
    | '+' :: _ => ['+']
    | '-' :: _ => ['-']
    | _ => []
  let unsigned := cs.drop sign.length
  match wordAtFront? unsigned with
  | some (word, rest) => (Binary64.ofPlain? (sign ++ word)).map fun x => (x, rest)
  | none =>
    let whole := unsigned.takeWhile Char.isDigit
    let rest := unsigned.drop whole.length
    let places := match rest with
      | '.' :: rest => '.' :: rest.takeWhile Char.isDigit
      | _ => []
    let exponent := exponentAtFront (rest.drop places.length)
    let written := sign ++ whole ++ places ++ exponent
    (Binary64.ofPlain? written).map fun x => (x, cs.drop written.length)

def unitAtFront (cs : List Char) : Binary64 × List Char :=
  match cs with
  | '+' :: rest => (1, rest)
  | '-' :: rest => (-1, rest)
  | cs => (1, cs)

/-- The parts of a complex number at the front of a text, and the rest. -/
def partsAtFront? (cs : List Char) : Option (Binary64 × Binary64 × List Char) :=
  let dropMark (re im : Binary64) (cs : List Char) : Option (Binary64 × Binary64 × List Char) :=
    match cs with
    | 'j' :: rest => some (re, im, rest)
    | 'J' :: rest => some (re, im, rest)
    | _ => none
  match numberAtFront? cs with
  | none =>
    let (im, rest) := unitAtFront cs
    dropMark 0 im rest
  | some (x, rest) =>
    if rest.head? = some '+' ∨ rest.head? = some '-' then
      let (im, rest) := (numberAtFront? rest).getD (unitAtFront rest)
      dropMark x im rest
    else (dropMark 0 x rest) <|> some (x, 0, rest)

/-- The complex number of a text, which may stand in parentheses. -/
def complexOfText (s : String) : Except Mishap Value :=
  let isSpace (c : Char) : Bool := c = ' ' || (9 ≤ c.toNat && c.toNat ≤ 13)
  let cs := Text.trimBoth Text.isWhiteSpace (s.toList.map Text.plainDigit)
  let parts := do
    let cs ← Binary64.dropUnderscores none cs
    match cs with
    | '(' :: cs =>
      let (re, im, rest) ← partsAtFront? (cs.dropWhile isSpace)
      if rest.dropWhile isSpace = [')'] then pure (re, im) else none
    | cs =>
      let (re, im, rest) ← partsAtFront? cs
      if rest.isEmpty then pure (re, im) else none
  match parts with
  | some (re, im) => .ok (complexOf re im)
  | none => .error .malformed

def toComplex (v : Value) : Except Mishap Value :=
  match v with
  | text s => complexOfText s
  | v => do pure (complexOf (← v.toBinary64) 0)

/-! ### Items of arrays -/

/-- A wide item; nested lists become an array of them, and no value at all is NaN. -/
def toWide (v : Value) : Except Mishap Value := v.toNumberArray

end Value

namespace BuiltinType

/-- What the type makes of a value. Types without a conversion take none. -/
def convert (b : BuiltinType) (v : Value) : Except Mishap Value :=
  match b with
  | int => v.toWhole.map .int
  | float => v.toBinary64.map .float
  | str => .ok (.text v.asText)
  | bool => v.truth.map .bool
  | tuple => v.iterate.map .tuple
  | list => v.iterate.map .list
  | dict => v.toDict
  | complex => v.toComplex
  | bytes => v.toBytes
  | float64 => v.toWide
  | _ => .error .wrongType

end BuiltinType

namespace ElementType

/-- What the type makes of a value. A declared type has no use for one. -/
def convert (t : ElementType) (v : Value) : Except Mishap Value :=
  match t with
  | builtin b => b.convert v
  | declared .. => .error .wrongType

end ElementType

namespace GenericType

/-- What the type makes of a value: parameters do not matter. -/
def convert (t : GenericType) (v : Value) : Except Mishap Value :=
  match t.form with
  | .alias origin => origin.convert v
  | _ => .error .wrongType

end GenericType

end FuzzyAlgebra

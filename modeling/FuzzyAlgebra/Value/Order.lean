import FuzzyAlgebra.Value.Number

/-!
# The order of values

Numbers are compared exactly, whatever their kinds; items of arrays and what stands beside them are
compared in the width of the item. Texts, lists and tuples are compared from the front. Dictionary
keys are the same when their values are equal.
-/

namespace FuzzyAlgebra

/-- An exact number on the extended line. -/
inductive Quantity where
  | nan
  | infinite (negative : Bool)
  | ratio (num : Int) (den : Nat)
  /-- The number `num * 10 ^ scale`. -/
  | scaled (num scale : Int)

namespace Quantity

def ofBinary64 : Binary64 → Quantity
  | .nan => nan
  | .infinite negative => infinite negative
  | .finite negative units _ => ratio (Binary64.signed negative units) Binary64.unitsPerOne

def ofDecimal : Decimal → Quantity
  | .finite negative digits scale => scaled (Binary64.signed negative digits) scale
  | .infinite negative => infinite negative
  | .nan .. => nan

def isNaN : Quantity → Bool
  | nan => true
  | _ => false

def isZero : Quantity → Bool
  | ratio num _ => num = 0
  | scaled num _ => num = 0
  | _ => false

def digitCount (n : Nat) : Int := (toString n).length

/-- The order of `a * 10 ^ scale` and `b / n`. Zeros and powers of ten that are far apart decide
without being written out. -/
def compareScaled (a scale b : Int) (n : Nat) : Ordering :=
  let top := digitCount a.natAbs + scale
  if a = 0 ∨ b = 0 ∨ (a < 0) ≠ (b < 0) then compare a b
  else if digitCount b.natAbs + 1 < top then compare a 0
  else if top < -digitCount n then compare 0 b
  else if scale < 0 then compare (a * n) (b * 10 ^ scale.natAbs)
  else compare (a * 10 ^ scale.natAbs * n) b

def compareDecimals (a s b t : Int) : Ordering :=
  let top := compare (digitCount a.natAbs + s) (digitCount b.natAbs + t)
  if a = 0 ∨ b = 0 ∨ (a < 0) ≠ (b < 0) then compare a b
  else if top ≠ .eq then (if a < 0 then top.swap else top)
  else if s < t then compare a (b * 10 ^ (t - s).natAbs)
  else compare (a * 10 ^ (s - t).natAbs) b

def compare? : Quantity → Quantity → Option Ordering
  | nan, _ => none
  | _, nan => none
  | infinite s, infinite t => some (if s = t then .eq else if s then .lt else .gt)
  | infinite s, _ => some (if s then .lt else .gt)
  | _, infinite t => some (if t then .gt else .lt)
  | ratio a m, ratio b n => some (compare (a * n) (b * m))
  | scaled a s, ratio b n => some (compareScaled a s b n)
  | ratio a m, scaled b t => some (compareScaled b t a m).swap
  | scaled a s, scaled b t => some (compareDecimals a s b t)

end Quantity

namespace Value

def quantity? : Value → Option Quantity
  | bool b => some (.ratio (Numeral.ofTruth b) 1)
  | int n => some (.ratio n 1)
  | float x => some (.ofBinary64 x)
  | degree d => some (.ofBinary64 d.number)
  | fraction num den => some (.ratio num den)
  | decimal d => some (.ofDecimal d)
  | scalar (.float64 x) => some (.ofBinary64 x)
  | scalar (.float32 x) => some (.ofBinary64 x)
  | scalar (.int64 n) => some (.ratio n 1)
  | scalar (.uint64 n) => some (.ratio n 1)
  | scalar (.bool b) => some (.ratio (Numeral.ofTruth b) 1)
  | _ => none

def isFloating : Value → Bool
  | float _ => true
  | degree _ => true
  | scalar (.float64 _) => true
  | scalar (.float32 _) => true
  | _ => false

/-- A value as it is compared with another one: beside an item of an array a plain number takes the
width of the item, and beside a floating-point number an item that is whole is rounded. -/
def beside (a b : Value) : Except Mishap Value :=
  match a, b with
  | float x, scalar (.float32 _) => .ok (float x.narrow)
  | int n, scalar (.float32 _) => (bounded (.ofInt n)).map fun x => float x.narrow
  | int n, scalar (.float64 _) => (bounded (.ofInt n)).map float
  | int n, scalar (.bool _) => if Numeral.wrap n = n then .ok (int n) else .error .tooLarge
  | scalar (.int64 n), b => .ok (if b.isFloating then float (.ofInt n) else int n)
  | scalar (.uint64 n), b => .ok (if b.isFloating then float (.ofInt n) else int n)
  | a, _ => .ok a

def quantities (a b : Value) : Except Mishap (Option (Quantity × Quantity)) := do
  match (← a.beside b).quantity?, (← b.beside a).quantity? with
  | some x, some y => pure (some (x, y))
  | _, _ => pure none

/-- The order of two numbers, unless one is NaN. A decimal cannot be asked for its order to NaN or
to a whole item, and a fraction multiplies such an item within 64 bits. -/
def compareNumbers (a b : Value) : Except Mishap (Option Ordering) := do
  match a, b with
  | decimal _, scalar (.int64 _) => .error .wrongType
  | fraction num den, scalar (.int64 n) =>
    if Numeral.wrap den = den then pure (some (compare num (Numeral.wrap (den * n))))
    else .error .tooLarge
  | a, b =>
    match ← quantities a b with
    | some (x, y) =>
      if (a.isDecimal || b.isDecimal) && (x.isNaN || y.isNaN) then .error .indefinite
      else pure (x.compare? y)
    | none => .error .wrongType

/-- What a comparison gives for all items of an array; only one of a single item has a truth
value. -/
def overPairs {α : Type} (f : Value → Value → Except Mishap α) (p : Paired) : Except Mishap α := do
  match ← p.pairs.mapM fun (x, y) => f x y with
  | [result] => pure result
  | _ => .error .malformed

/-- The order of two values that are no two sequences of a kind. -/
def compareApart (a b : Value) : Except Mishap (Option Ordering) := do
  if meetAsArrays a b then overPairs compareNumbers (← paired a b)
  else if (a.isText && b.isScalar) || (a.isScalar && b.isText) then .error .notElementwise
  else compareNumbers a b

/-! ### Keys -/

mutual

/-- Whether two values are the same dictionary key: numbers by their exact size, other kinds by
content. -/
def sameKey : Value → Value → Bool
  | absent, absent => true
  | text s, text t => s = t
  | bytes s, bytes t => s = t
  | tuple xs, tuple ys => sameKeys xs ys
  | operator p, operator q => p = q
  | type t, type u => t = u
  | generic t, generic u => t = u
  | object s d k, object t e l => s = t && k = l && (k.isSome || d.get = e.get)
  | a, b =>
    match a.quantity?, b.quantity? with
    | some x, some y => x.compare? y == some .eq
    | _, _ => false

def sameKeys : List Value → List Value → Bool
  | [], [] => true
  | x :: xs, y :: ys => sameKey x y && sameKeys xs ys
  | _, _ => false

end

/-! ### Equality and order -/

def isNumber (v : Value) : Bool := v.quantity?.isSome

def isSignaling : Value → Bool
  | decimal (.nan _ true _) => true
  | _ => false

/-- Whether two numbers are equal; what is no number is equal to none. A decimal that must not be
used cannot be compared with a number, and no decimal can with a whole item after it. -/
def equalNumbers (a b : Value) : Except Mishap Bool := do
  match a, b with
  | decimal _, scalar (.int64 _) => .error .wrongType
  | a, b =>
    match ← quantities a b with
    | some (x, y) =>
      if a.isSignaling || b.isSignaling then .error .indefinite else pure (x.compare? y == some .eq)
    | none => pure false

/-- Whether an array is equal to a value. Items that are text are not equal to any number. -/
def equalAsArrays (a b : Value) : Except Mishap Bool := do
  let texts := if a.isArrayLike then a else b
  match texts.itemKind, texts.shape? with
  | .text, some shape => if shape.all (· = 1) then pure false else .error .malformed
  | _, _ => overPairs equalNumbers (← paired a b)

/-- Whether two values of other kinds than collections are equal. -/
def equalApart (a b : Value) : Except Mishap Bool :=
  if meetAsArrays a b then equalAsArrays a b
  else if a.isNumber && b.isNumber then equalNumbers a b
  else .ok (sameKey a b)

mutual

/-- Whether two values are equal: numbers by size, other kinds by content. Lists of different
lengths are not even looked into. -/
def equals : Value → Value → Except Mishap Bool
  | list xs, list ys => if xs.length = ys.length then equalItems xs ys else .ok false
  | tuple xs, tuple ys => equalItems xs ys
  | dict es, dict fs => if es.length = fs.length then equalEntries es fs else .ok false
  | a, b => equalApart a b

def equalItems : List Value → List Value → Except Mishap Bool
  | [], [] => .ok true
  | x :: xs, y :: ys => do if ← equals x y then equalItems xs ys else pure false
  | _, _ => .ok false

/-- Whether every entry has an equal one under the same key. -/
def equalEntries : List (Value × Value) → List (Value × Value) → Except Mishap Bool
  | [], _ => .ok true
  | (k, v) :: rest, others =>
    match others.find? fun (l, _) => sameKey k l with
    | some (_, w) => do if ← equals v w then equalEntries rest others else pure false
    | none => .ok false

end

mutual

/-- The order of two values: numbers by size, texts by code points, sequences by the first items
that differ. NaN has no order. -/
def compare? : Value → Value → Except Mishap (Option Ordering)
  | text s, text t => .ok (some (compareOfLessAndEq s t))
  | list xs, list ys => compareItems xs ys
  | tuple xs, tuple ys => compareItems xs ys
  | a, b => compareApart a b

def compareItems : List Value → List Value → Except Mishap (Option Ordering)
  | [], [] => .ok (some .eq)
  | [], _ :: _ => .ok (some .lt)
  | _ :: _, [] => .ok (some .gt)
  | x :: xs, y :: ys => do if ← equals x y then compareItems xs ys else compare? x y

end

def lt (a b : Value) : Except Mishap Bool := (compare? a b).map (· == some .lt)

def gt (a b : Value) : Except Mishap Bool := (compare? a b).map (· == some .gt)

def le (a b : Value) : Except Mishap Bool :=
  (compare? a b).map fun o => o == some .lt || o == some .eq

/-- Equality of numbers; values of other kinds differ from every number. -/
def eqNumber (a : Value) (b : Binary64) : Bool :=
  match compareNumbers a (float b) with
  | .ok (some .eq) => true
  | _ => false

/-- The greater of two values; the first unless the second is strictly greater. -/
def maximum (a b : Value) : Except Mishap Value := (gt b a).map fun more => if more then b else a

/-- The smaller of two values; the first unless the second is strictly smaller. -/
def minimum (a b : Value) : Except Mishap Value := (lt b a).map fun less => if less then b else a

/-! ### Dictionaries -/

/-- Entries with a new one: a key that is there keeps its place and takes the new value. -/
def insertEntry (k v : Value) : List (Value × Value) → List (Value × Value)
  | [] => [(k, v)]
  | (l, w) :: rest => if sameKey l k then (l, v) :: rest else (l, w) :: insertEntry k v rest

def ofEntries (entries : List (Value × Value)) : Value :=
  dict (entries.foldl (fun acc (k, v) => insertEntry k v acc) [])

def entry? (key : String) : List (Value × Value) → Option Value
  | [] => none
  | (k, v) :: rest => if sameKey k (text key) then some v else entry? key rest

end Value

end FuzzyAlgebra

import FuzzyAlgebra.Value.Array

/-!
# Values as numbers

Arithmetic on values of any kind. Numbers are added and multiplied as numbers; texts, lists and
tuples are joined and repeated; an array takes part item by item.
-/

namespace FuzzyAlgebra

namespace Value

def arithmetic (op : Arithmetic) (a b : Value) : Except Mishap Value :=
  match Numeral.ofValue? a, Numeral.ofValue? b with
  | some m, some n => m.combine op n
  | _, _ => .error .wrongType

def decimal? : Value → Option Decimal
  | decimal d => some d
  | v => do pure (.ofSigned (← (← Numeral.ofValue? v).plain.whole?) 0)

def onDecimals (f : Decimal → Decimal → Except Mishap Decimal) (a b : Value) :
    Except Mishap Value :=
  match a.decimal?, b.decimal? with
  | some d, some e => (f d e).map decimal
  | _, _ => .error .wrongType

def isDecimal : Value → Bool
  | decimal _ => true
  | _ => false

def isScalar : Value → Bool
  | scalar _ => true
  | _ => false

def isText : Value → Bool
  | text _ => true
  | _ => false

/-- Whether one of two values is an array, or becomes one beside the other. -/
def meetAsArrays (a b : Value) : Bool :=
  a matches array .. || b matches array .. || (a.isScalar && b.isArrayLike)
    || (a.isArrayLike && b.isScalar)

/-- Two values of which one is an array or becomes one. -/
structure Paired where
  kind : ItemKind
  shape : List Nat
  /-- The items beside the other value, which is plain where the items have kinds of their own. -/
  pairs : List (Value × Value)

def paired (a b : Value) : Except Mishap Paired := do
  if a.isArrayLike && b.isArrayLike then .error .wrongType
  else if a.isArrayLike then
    let (kind, shape, items) ← a.toArray
    let other := if kind = .any then b.plainItem else b
    pure ⟨kind, shape, items.map fun item => (item, other)⟩
  else
    let (kind, shape, items) ← b.toArray
    let other := if kind = .any then a.plainItem else a
    pure ⟨kind, shape, items.map fun item => (other, item)⟩

/-- An operation item by item; one of the two values is no array. -/
def itemwise (f : Value → Value → Except Mishap Value) (a b : Value) : Except Mishap Value := do
  let p ← paired a b
  pure (ofItems (p.kind = .any) p.shape (← p.pairs.mapM fun (x, y) => f x y))

def addNumbers (a b : Value) : Except Mishap Value :=
  if a.isDecimal || b.isDecimal then onDecimals Decimal.add a b
  else if (a.isText && b.isScalar) || (a.isScalar && b.isText) then .error .notElementwise
  else arithmetic .sum a b

/-- A sum of numbers; two texts, lists or tuples are joined. -/
def add (a b : Value) : Except Mishap Value :=
  match a, b with
  | text s, text t => .ok (text (s ++ t))
  | list xs, list ys => .ok (list (xs ++ ys))
  | tuple xs, tuple ys => .ok (tuple (xs ++ ys))
  | a, b => if meetAsArrays a b then itemwise addNumbers a b else addNumbers a b

/-! ### Repetition -/

def count? : Value → Option Int
  | int n => some n
  | bool b => some (Numeral.ofTruth b)
  | scalar (.int64 n) => some n
  | _ => none

def mostItems : Nat := 2 ^ 33

/-- How often a sequence of a length is repeated: the count has to be a number of 64 bits, and what
comes out has to fit into memory. A text that no computer could hold is told apart. -/
def repetitions (isText : Bool) (length : Nat) (count : Int) : Except Mishap Nat :=
  if Numeral.wrap count ≠ count then .error .tooLarge
  else
    let total := length * count.toNat
    if total ≤ mostItems then .ok count.toNat
    else if isText && 2 ^ 63 ≤ total then .error .tooLarge
    else .error .noMemory

def times (n : Nat) (xs : List α) : List α :=
  if xs.isEmpty then [] else (List.replicate n xs).flatten

def repeated? (a b : Value) : Option (Except Mishap Value) :=
  match a, b.count? with
  | text s, some n =>
    some ((repetitions true s.length n).map fun n => text (String.ofList (times n s.toList)))
  | list xs, some n => some ((repetitions false xs.length n).map fun n => list (times n xs))
  | tuple xs, some n => some ((repetitions false xs.length n).map fun n => tuple (times n xs))
  | _, _ => none

def mulNumbers (a b : Value) : Except Mishap Value :=
  if a.isDecimal || b.isDecimal then onDecimals Decimal.mul a b else arithmetic .product a b

/-- A product of numbers; a text, list or tuple times a whole number is repeated. -/
def mul (a b : Value) : Except Mishap Value :=
  match repeated? a b, repeated? b a with
  | some v, _ => v
  | _, some v => v
  | none, none =>
    if a matches array .. || b matches array .. then itemwise mulNumbers a b else mulNumbers a b

def sub (a b : Value) : Except Mishap Value := arithmetic .difference a b

def div (a b : Value) : Except Mishap Value :=
  match Numeral.ofValue? a, Numeral.ofValue? b with
  | some m, some n => Numeral.floating (· / ·) m n
  | _, _ => .error .wrongType

end Value

end FuzzyAlgebra

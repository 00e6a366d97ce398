import FuzzyAlgebra.Value.Numeral

/-!
# Arrays

A list beside an item of an array becomes an array itself. Its items get one kind, the least that
has a place for all of them.
-/

namespace FuzzyAlgebra

namespace ItemKind

def rank : ItemKind → Nat
  | flag => 0
  | unsigned => 1
  | word => 2
  | narrow => 3
  | wide => 4
  | text => 5
  | any => 6

def isWhole : ItemKind → Bool
  | unsigned => true
  | word => true
  | _ => false

/-- The least kind with a place for both. Whole numbers with a sign and without one have it among
the wide numbers, and so have whole numbers and narrow numbers. -/
def join (a b : ItemKind) : ItemKind :=
  if a = b then a
  else if (a.isWhole && (b.isWhole || b = narrow)) || (a = narrow && b.isWhole) then wide
  else if a.rank < b.rank then b else a

def ofScalar : ArrayScalar → ItemKind
  | .float64 _ => wide
  | .float32 _ => narrow
  | .int64 _ => word
  | .uint64 _ => unsigned
  | .bool _ => flag

def ofValue : Value → ItemKind
  | .bool _ => flag
  | .int n =>
    if Numeral.wrap n = n then word else if Numeral.wrapUnsigned n = n then unsigned else any
  | .float _ => wide
  | .degree _ => wide
  | .text _ => text
  | .bytes _ => text
  | .scalar s => ofScalar s
  | _ => any

end ItemKind

namespace Value

def mostDimensions : Nat := 64

mutual

/-- The lengths of nested lists in all dimensions, if the lists on one level agree and there are no
more levels than `axes`. -/
def shapeWithin? (axes : Nat) : Value → Option (List Nat)
  | list items => if axes = 0 then none else rowsWithin? (axes - 1) items
  | tuple items => if axes = 0 then none else rowsWithin? (axes - 1) items
  | array _ shape _ => if shape.length ≤ axes then some shape else none
  | _ => some []

def rowsWithin? (axes : Nat) : List Value → Option (List Nat)
  | [] => some [0]
  | [item] => do pure (1 :: (← item.shapeWithin? axes))
  | item :: rest => do
    let first ← item.shapeWithin? axes
    match ← rowsWithin? axes rest with
    | [] => none
    | count :: others => if first = others then pure ((count + 1) :: others) else none

end

def shape? (v : Value) : Option (List Nat) := v.shapeWithin? mostDimensions

mutual

def leaves : Value → List Value
  | list items => leavesOf items
  | tuple items => leavesOf items
  | array _ _ items => items
  | v => [v]

def leavesOf : List Value → List Value
  | [] => []
  | v :: rest => leaves v ++ leavesOf rest

end

def itemKind (v : Value) : ItemKind :=
  match v.leaves with
  | [] => .wide
  | first :: rest => rest.foldl (fun kind item => kind.join (.ofValue item)) (.ofValue first)

def toItem (kind : ItemKind) (v : Value) : Except Mishap Value :=
  let wholeItem (make : Int → ArrayScalar) (n? : Option (Except Mishap Int)) :=
    match n? with
    | some n => n.map fun n => scalar (make n)
    | none => .error .wrongType
  match kind with
  | .flag => do pure (scalar (.bool ((← v.toBinary64) ≠ 0)))
  | .word => wholeItem .int64 ((Numeral.ofValue? v).bind Numeral.word?)
  | .unsigned => wholeItem .uint64 ((Numeral.ofValue? v).bind Numeral.unsigned?)
  | .narrow => v.toBinary64.map fun x => scalar (.float32 x)
  | .wide => v.toBinary64.map fun x => scalar (.float64 x)
  | .text => .error .notElementwise
  | .any => .ok v

/-- An array from its items, the kind being that of the first one unless it is given. -/
def ofItems (any : Bool) (shape : List Nat) (items : List Value) : Value :=
  array (if any then .any else (items.head?.map ItemKind.ofValue).getD .wide) shape items

/-- Lengths, kind and items of nested lists as an array; lists that do not agree in length, or that
are nested too deep, make none. -/
def toArray (v : Value) : Except Mishap (ItemKind × List Nat × List Value) :=
  match v, v.shape? with
  | array kind shape items, _ => .ok (kind, shape, items)
  | _, none => .error .malformed
  | v, some shape => do
    let kind := v.itemKind
    pure (kind, shape, ← v.leaves.mapM (toItem kind))

/-- Whether this is an array, or a list that becomes one beside an item. -/
def isArrayLike : Value → Bool
  | list _ => true
  | tuple _ => true
  | array .. => true
  | _ => false

/-- Nested lists as an array of wide numbers, where no value at all counts as NaN. -/
def toNumberArray (v : Value) : Except Mishap Value :=
  match v.shape? with
  | none => .error .malformed
  | some shape => do
    let items ← v.leaves.mapM fun item =>
      match item with
      | absent => .ok (scalar (.float64 .nan))
      | item => item.toBinary64.map fun x => scalar (.float64 x)
    pure (if v.isArrayLike then array .wide shape items else items.headD absent)

def plainItem : Value → Value
  | scalar (.float64 x) => float x
  | scalar (.float32 x) => float x
  | scalar (.int64 n) => int n
  | scalar (.uint64 n) => int n
  | scalar (.bool b) => bool b
  | v => v

/-- The rows of an array, each of them an array if there are more dimensions. -/
def rowsOf (kind : ItemKind) (shape : List Nat) (items : List Value) : List Value :=
  match shape with
  | [] => []
  | [_] => items
  | count :: rest =>
    let size := rest.foldl (· * ·) 1
    (List.range count).map fun i => array kind rest ((items.drop (i * size)).take size)

end Value

end FuzzyAlgebra

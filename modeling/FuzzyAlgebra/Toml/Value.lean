import FuzzyAlgebra.Value.Basic

/-!
# Values of TOML documents

A document is a table: names with values, in the order in which they were first given.
-/

namespace FuzzyAlgebra.Toml

/-- A value of a TOML document. Moments in time are kept as they are written. -/
inductive Value where
  | text (s : String)
  | int (n : Int)
  | float (x : Binary64)
  | bool (b : Bool)
  | moment (s : String)
  | array (items : List Value)
  | table (entries : List (String × Value))

abbrev Table : Type := List (String × Value)

namespace Value

def isContainer : Value → Bool
  | array _ => true
  | table _ => true
  | _ => false

mutual

def toValue : Value → FuzzyAlgebra.Value
  | text s => .text s
  | int n => .int n
  | float x => .float x
  | bool b => .bool b
  | moment s => .object "datetime" (Thunk.pure (some s)) none
  | array items => .list (toValues items)
  | table entries => .dict (toEntries entries)

def toValues : List Value → List FuzzyAlgebra.Value
  | [] => []
  | v :: vs => v.toValue :: toValues vs

def toEntries : List (String × Value) → List (FuzzyAlgebra.Value × FuzzyAlgebra.Value)
  | [] => []
  | (name, v) :: rest => (.text name, v.toValue) :: toEntries rest

end

end Value

namespace Table

def get? (t : Table) (name : String) : Option Value :=
  (t.find? fun (n, _) => n = name).map Prod.snd

def contains (t : Table) (name : String) : Bool := (t.get? name).isSome

def set (name : String) (v : Value) : Table → Table
  | [] => [(name, v)]
  | (n, w) :: rest => if n = name then (n, v) :: rest else (n, w) :: set name v rest

mutual

/-- Changes the table at a path, making the tables on the way that are not there. Where arrays are
open, a path through one leads to its last element. -/
def update (open_ : Bool) (change : Table → Option Table) : List String → Table → Option Table
  | [], t => change t
  | name :: path, t => do
    let v ← match Table.get? t name with
      | none => do pure (Value.table (← update open_ change path []))
      | some v => updateValue open_ change path v
    pure (set name v t)

def updateValue (open_ : Bool) (change : Table → Option Table) (path : List String) :
    Value → Option Value
  | .table t => do pure (.table (← update open_ change path t))
  | .array items =>
    if open_ then
      match items.getLast? with
      | some (.table t) => do
        let t ← update open_ change path t
        pure (.array (items.dropLast ++ [.table t]))
      | _ => none
    else none
  | _ => none

end

def appendTo (path : List String) (name : String) (t : Table) : Option Table :=
  update true (fun t =>
    match Table.get? t name with
    | none => some (set name (.array [.table []]) t)
    | some (.array items) => some (set name (.array (items ++ [.table []])) t)
    | some _ => none) path t

end Table

end FuzzyAlgebra.Toml

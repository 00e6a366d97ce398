import FuzzyAlgebra.Binary64.Text
import FuzzyAlgebra.Value.Basic

/-!
# Written arrays

The items of an array stand in columns: whole numbers end at the same place, numbers with a fraction
have their points below each other, and all items switch to exponents together. Long rows are broken
into lines, and of an array with many items only those near its edges are written.
-/

namespace FuzzyAlgebra

/-- What is written of an item: a number in the columns of its array, or a text. -/
inductive ArrayItem where
  | number (s : ArrayScalar) (display : String)
  | other (display : String)

namespace ArrayItem

def display : ArrayItem → String
  | number _ display => display
  | other display => display

def binary64? : ArrayItem → Option Binary64
  | number (.float64 x) _ => some x
  | number (.float32 x) _ => some x
  | _ => none

def plain : ArrayItem → String
  | number (.int64 n) _ => toString n
  | number (.uint64 n) _ => toString n
  | number (.bool b) _ => if b then "True" else "False"
  | item => item.display

end ArrayItem

/-- An array as it is written: its items row by row. -/
structure ArrayText where
  kind : ItemKind
  shape : List Nat
  items : Array ArrayItem

namespace ArrayText

def greatest (lengths : List Nat) : Nat := lengths.foldl max 0

def spaces (count : Nat) : String := String.ofList (List.replicate count ' ')

def alignRight (width : Nat) (s : String) : String := spaces (width - s.length) ++ s

/-! ### Numbers with a fraction -/

def mostPlaces : Nat := 8

def magnitude? : Binary64 → Option Nat
  | .finite _ units _ => some units
  | _ => none

def signOf : Binary64 → String
  | .finite true _ _ => "-"
  | .infinite true => "-"
  | _ => ""

def shortestOf (narrow : Bool) (units : Nat) : Binary64.Digits :=
  if narrow then Binary64.shortestNarrow units else Binary64.shortest units

def readsBack (narrow : Bool) (units : Nat) (d : Binary64.Digits) : Bool :=
  if narrow then Binary64.roundsTo (Binary64.narrowSpacing units) (2 ^ 925) units d
  else Binary64.roundsTo (Binary64.spacing units) 1 units d

/-- Whole and fractional digits, the fraction cut to the places that items have. -/
def positionalParts (narrow : Bool) (units : Nat) : String × String :=
  let d := shortestOf narrow units
  let d := if d.scale < -(mostPlaces : Int) then (Binary64.fixed units mostPlaces).trim else d
  if 0 ≤ d.scale then (d.text ++ Binary64.zeros d.scale.natAbs, "")
  else
    let digits := Binary64.padLeft (d.scale.natAbs + 1) d.text
    let whole := digits.length - d.scale.natAbs
    (String.ofList (digits.toList.take whole), String.ofList (digits.toList.drop whole))

/-- The fewest digits beside an exponent, no more than items have. -/
def fewDigits (narrow : Bool) (units : Nat) : Binary64.Digits :=
  let d := shortestOf narrow units
  if mostPlaces + 1 < d.text.length then (Binary64.significant units (mostPlaces + 1)).trim else d

/-- So many digits of a magnitude, cut where only the cut digits read back, rounded up where only
the digits above do, and otherwise rounded to the nearest. -/
def exactDigits (narrow : Bool) (units count : Nat) : Binary64.Digits :=
  let scale := Binary64.leadingPower units + 1 - count
  let (num, den) := Binary64.overPower units scale
  let below := num / den
  let low := readsBack narrow units ⟨below, scale⟩
  let high := readsBack narrow units ⟨below + 1, scale⟩
  let digits :=
    if low = high then Binary64.nearestEven num den else if low then below else below + 1
  if digits = 10 ^ count then ⟨10 ^ (count - 1), scale + 1⟩ else ⟨digits, scale⟩

def exponentOf (units : Nat) (d : Binary64.Digits) : Int := if units = 0 then 0 else d.exponent

/-- Whether numbers are written with exponents: some are great, some are small, or they differ by
more than a thousand, all in the width of the items. -/
def needsExponent (narrow : Bool) (magnitudes : List Binary64) : Bool :=
  let fit (x : Binary64) : Binary64 := if narrow then x.narrow else x
  match magnitudes.filter fun x => !x.eqv 0 with
  | [] => false
  | first :: rest =>
    let most := rest.foldl Binary64.max first
    let least := rest.foldl Binary64.min first
    Binary64.ofInt (if narrow then 10 ^ 6 else 10 ^ 8) ≤ most
      || least < fit (Binary64.ofDecimal false 1 (-4)) || Binary64.ofInt 1000 < fit (most / least)

/-- The columns of numbers with a fraction. -/
structure Columns where
  narrow : Bool
  exponents : Bool
  /-- How many characters stand before the point. -/
  left : Nat
  /-- How many characters stand after it. -/
  right : Nat
  /-- How many places every number with an exponent has. -/
  places : Nat
  exponentWidth : Nat

namespace Columns

/-- Room before the point for the words that stand for other numbers. -/
def withWords (numbers : List Binary64) (c : Columns) : Columns :=
  if numbers.all Binary64.isFinite then c
  else
    let longest := if numbers.any fun x => x = .infinite true then 4 else 3
    { c with left := max c.left (longest - (c.right + 1)) }

def positional (narrow : Bool) (numbers : List Binary64) : Columns :=
  let parts := numbers.filterMap fun x => (magnitude? x).map fun units =>
    let (whole, places) := positionalParts narrow units
    ((signOf x ++ whole).length, places.length)
  withWords numbers
    ⟨narrow, false, greatest (parts.map Prod.fst), greatest (parts.map Prod.snd), 0, 0⟩

def scientific (narrow : Bool) (numbers : List Binary64) : Columns :=
  let digits := numbers.filterMap fun x => (magnitude? x).map fun units =>
    (units, fewDigits narrow units)
  let places := greatest (digits.map fun (_, d) => d.text.length - 1)
  let width := max 2 (greatest (digits.map fun (units, d) =>
    (toString (exponentOf units d).natAbs).length))
  let left := greatest (numbers.filterMap fun x =>
    (magnitude? x).map fun _ => (signOf x).length + 1)
  withWords numbers ⟨narrow, true, left, width + 2 + places, places, width⟩

def ofNumbers (narrow : Bool) (numbers : List Binary64) : Columns :=
  let magnitudes := numbers.filterMap fun x =>
    if x.isFinite then some (if x < 0 then -x else x) else none
  if needsExponent narrow magnitudes then scientific narrow numbers else positional narrow numbers

/-- A magnitude with an exponent: the digits before and after the point. -/
def scientificParts (c : Columns) (units : Nat) : String × String :=
  let d := if units = 0 then ⟨0, 0⟩ else exactDigits c.narrow units (c.places + 1)
  let digits := if units = 0 then Binary64.zeros (c.places + 1) else d.text
  let e := exponentOf units d
  let exponent := (if e < 0 then "e-" else "e+")
    ++ Binary64.padLeft c.exponentWidth (toString e.natAbs)
  (String.ofList (digits.toList.take 1), String.ofList (digits.toList.drop 1) ++ exponent)

def render (c : Columns) (x : Binary64) : String :=
  match magnitude? x with
  | none => alignRight (c.left + c.right + 1) x.render
  | some units =>
    let (whole, places) :=
      if c.exponents then c.scientificParts units else positionalParts c.narrow units
    let fill := if c.exponents then "" else spaces (c.right - places.length)
    alignRight c.left (signOf x ++ whole) ++ "." ++ places ++ fill

end Columns

/-! ### Items -/

def threshold : Nat := 1000

/-- How many items are written at each edge of an array with more. -/
def edge : Nat := 3

def size (t : ArrayText) : Nat := t.shape.foldl (· * ·) 1

def isCut (t : ArrayText) : Bool := threshold < t.size

/-- The places along a dimension that are written; `none` stands for those left out. -/
def shown (cut : Bool) (count : Nat) : List (Option Nat) :=
  if cut && 2 * edge < count then
    (List.range edge).map some ++ none :: (List.range edge).map fun i => some (count - edge + i)
  else (List.range count).map some

/-- The places of the items that are written, the first of them at `start`. -/
def shownFrom (cut : Bool) (start : Nat) : List Nat → List Nat
  | [] => [start]
  | count :: rest =>
    ((shown cut count).filterMap id).flatMap fun i =>
      shownFrom cut (start + i * rest.foldl (· * ·) 1) rest

/-- How the items of an array are written; decided once for all of them. -/
inductive ItemStyle where
  | displayed
  | inColumns (columns : Columns)
  | alignedTo (width : Nat)

namespace ItemStyle

def ofNumbers (narrow : Bool) (items : List ArrayItem) : ItemStyle :=
  inColumns (Columns.ofNumbers narrow (items.filterMap ArrayItem.binary64?))

def ofItems (kind : ItemKind) (items : List ArrayItem) : ItemStyle :=
  match kind with
  | .any => displayed
  | .narrow => ofNumbers true items
  | .wide => ofNumbers false items
  | .flag => alignedTo "False".length
  | _ => alignedTo (greatest (items.map fun item => item.plain.length))

def text (style : ItemStyle) (item : ArrayItem) : String :=
  match style with
  | displayed => item.display
  | inColumns columns => (item.binary64?.map columns.render).getD item.display
  | alignedTo width => alignRight width item.plain

end ItemStyle

/-! ### Lines -/

def lineLength : Nat := 75

def opening : String := "array("

/-- Words with commas between them in lines of a length, each after an indentation. A line ends
before a word that has no place in it. -/
def breakLines (indent : String) (length : Nat) : List String → List String
  | [] => [indent]
  | word :: rest =>
    let (done, line) := rest.foldl (fun (done, line) word =>
      if length < line.length + 2 + word.length then (done ++ [line ++ ","], indent ++ word)
      else (done, line ++ ", " ++ word)) ([], indent ++ word)
    done ++ [line]

/-- The rows of an array from a place on, with the brackets around them. -/
def layOut (cut : Bool) (text : Nat → String) (indent : String) (length start : Nat) :
    List Nat → String
  | [] => text start
  | [count] =>
    let words := (shown cut count).map fun i => (i.map fun i => text (start + i)).getD "..."
    bracket ("\n".intercalate (breakLines indent (length - 1) words))
  | count :: rest =>
    let rows := (shown cut count).map fun i => indent ++ (i.map fun i =>
      layOut cut text (indent ++ " ") (length - 1) (start + i * rest.foldl (· * ·) 1) rest).getD
        "..."
    let separator := "," ++ String.ofList (List.replicate rest.length '\n')
    bracket (separator.intercalate rows)
where
  bracket (s : String) : String := "[" ++ (s.drop indent.length).toString ++ "]"

def body (t : ArrayText) : String :=
  if t.size = 0 then "[]"
  else
    let at_ (i : Nat) : ArrayItem := (t.items[i]?).getD (.other "")
    let style := ItemStyle.ofItems t.kind ((shownFrom t.isCut 0 t.shape).map at_)
    let indent := spaces (opening.length + 1)
    layOut t.isCut (fun i => style.text (at_ i)) indent (lineLength - 1) 0 t.shape

def kindName? : ItemKind → Option String
  | .narrow => some "float32"
  | .unsigned => some "uint64"
  | .any => some "object"
  | _ => none

def shapeText (shape : List Nat) : String :=
  match shape with
  | [count] => "(" ++ toString count ++ ",)"
  | shape => "(" ++ ", ".intercalate (shape.map toString) ++ ")"

/-- What is told about an array besides its items: its lengths if they do not show, and the kind of
its items if that does not show. -/
def extras (t : ArrayText) : List String :=
  let shape := if (t.size = 0 && t.shape ≠ [0]) || t.isCut then ["shape=" ++ shapeText t.shape]
    else []
  let kind := if t.size = 0 then some ((kindName? t.kind).getD "float64") else kindName? t.kind
  shape ++ (kind.map fun name => "dtype=" ++ name).toList

/-- The written array. What is told besides the items stands on a new line if the last one would be
too long. -/
def render (t : ArrayText) : String :=
  match t.extras with
  | [] => opening ++ t.body ++ ")"
  | extras =>
    let body := opening ++ t.body ++ ","
    let extra := ", ".intercalate extras ++ ")"
    let last := ((body.splitOn "\n").getLast?.getD "").length
    let joint := if lineLength < last + extra.length + 1 then "\n" ++ spaces opening.length else " "
    body ++ joint ++ extra

end ArrayText

end FuzzyAlgebra

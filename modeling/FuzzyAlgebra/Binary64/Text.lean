import FuzzyAlgebra.Binary64.Shortest

/-!
# Written numbers

The layout of numbers in messages and answers: the shortest digits, positional between `1e-4` and
`1e16` with at least one decimal place, and otherwise one digit before the point with a signed
exponent of at least two digits.
-/

namespace FuzzyAlgebra.Binary64

/-- Decisions of a written form that the digits leave open. -/
structure Layout where
  /-- The least exponent written positionally. -/
  leastPositional : Int
  /-- The first exponent written with an exponent mark. -/
  pastPositional : Int
  /-- The least count of exponent digits. -/
  exponentWidth : Nat

def layout : Layout := ⟨-4, 16, 2⟩

/-- Numbers of the 32-bit format, which hold no more than seven digits. -/
def narrowLayout : Layout := ⟨-4, 6, 2⟩

def zeros (count : Nat) : String := String.ofList (List.replicate count '0')

def padLeft (width : Nat) (text : String) : String := zeros (width - text.length) ++ text

def signText (negative : Bool) : String := if negative then "-" else ""

/-- The mark and the exponent, with its sign always written. -/
def Layout.exponentText (l : Layout) (e : Int) : String :=
  "e" ++ (if e < 0 then "-" else "+") ++ padLeft l.exponentWidth (toString e.natAbs)

/-- The first digit, then a point and the rest if there is any. -/
def pointAfterFirst (digits : String) : String :=
  match digits.toList with
  | [] => "0"
  | [d] => String.ofList [d]
  | d :: rest => String.ofList (d :: '.' :: rest)

/-- Digits with a point, and a zero where no decimal place would stand. -/
def positional (d : Digits) : String :=
  if 0 ≤ d.scale then d.text ++ zeros d.scale.natAbs ++ ".0"
  else
    let digits := padLeft (d.scale.natAbs + 1) d.text
    let whole := digits.length - d.scale.natAbs
    String.ofList (digits.toList.take whole) ++ "." ++ String.ofList (digits.toList.drop whole)

def Layout.render (l : Layout) (d : Digits) : String :=
  let e := d.exponent
  if l.leastPositional ≤ e ∧ e < l.pastPositional then positional d
  else pointAfterFirst d.text ++ l.exponentText e

def render : Binary64 → String
  | nan => "nan"
  | infinite negative => signText negative ++ "inf"
  | finite negative units _ => signText negative ++ layout.render (shortest units)

/-- A magnitude of the 32-bit format in its layout. Its digits can reach a power of ten that the
magnitude itself does not reach. -/
def narrowText (units : Nat) : String :=
  let d := shortestNarrow units
  if units = 0 ∨ reaches units narrowLayout.leastPositional then narrowLayout.render d
  else pointAfterFirst d.text ++ narrowLayout.exponentText d.exponent

def renderNarrow : Binary64 → String
  | finite negative units _ => signText negative ++ narrowText units
  | x => x.render

/-- A number with `count` significant digits and an exponent. -/
def renderSignificant (count : Nat) : Binary64 → String
  | nan => "nan"
  | infinite negative => signText negative ++ "inf"
  | finite negative units _ =>
    let d := significant units count
    let digits := if units = 0 then zeros count else d.text
    let e := if units = 0 then 0 else d.exponent
    signText negative ++ pointAfterFirst digits ++ layout.exponentText e

def renderFixed (places : Nat) : Binary64 → String
  | nan => "nan"
  | infinite negative => signText negative ++ "inf"
  | finite negative units _ =>
    let d := fixed units places
    signText negative ++ (if places = 0 then d.text else positional d)

instance : ToString Binary64 := ⟨render⟩

end FuzzyAlgebra.Binary64

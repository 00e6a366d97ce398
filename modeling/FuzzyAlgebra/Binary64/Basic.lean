import FuzzyAlgebra.Power

/-!
# Binary floating-point numbers of 64 bits

A finite number is a sign and a magnitude counted in units of `2 ^ (-1074)`, the distance between
the two smallest positive numbers. Every operation is the exact result rounded once to the nearest
representable magnitude, a tie going to the even multiple of the spacing. Comparisons are
comparisons of integers.
-/

namespace FuzzyAlgebra

namespace Binary64

def unitsPerOne : Nat := 2 ^ 1074

def limit : Nat := 2 ^ 2098

/-- The distance between neighbouring magnitudes around `units`. -/
def spacing (units : Nat) : Nat := 2 ^ (units.log2 - 52)

/-- A finite magnitude: below the limit, and a whole multiple of the spacing around it. -/
def Representable (units : Nat) : Prop := units < limit ∧ spacing units ∣ units

instance (units : Nat) : Decidable (Representable units) :=
  inferInstanceAs (Decidable (_ ∧ _))

theorem representable_zero : Representable 0 :=
  ⟨by decide +kernel, Nat.dvd_zero _⟩

end Binary64

/-- A 64-bit floating-point number. -/
inductive Binary64 where
  | nan
  | infinite (negative : Bool)
  | finite (negative : Bool) (units : Nat) (representable : Binary64.Representable units)
  deriving DecidableEq

namespace Binary64

/-- The whole number nearest to `num / den`, the even one of two. -/
def nearestEven (num den : Nat) : Nat :=
  let quotient := num / den
  let twice := 2 * (num % den)
  if twice < den then quotient
  else if den < twice then quotient + 1
  else if quotient % 2 = 0 then quotient else quotient + 1

/-- The magnitude nearest to `num / den` units, with no limit above. -/
def roundUnits (num den : Nat) : Nat :=
  let gap := spacing (num / den)
  nearestEven num (den * gap) * gap

/-- The number of a magnitude; a magnitude past the limit is infinite. -/
def ofUnits (negative : Bool) (units : Nat) : Binary64 :=
  if h : Representable units then finite negative units h else infinite negative

def ofRatio (negative : Bool) (num den : Nat) : Binary64 :=
  ofUnits negative (roundUnits num den)

def zero : Binary64 := finite false 0 representable_zero

def negativeZero : Binary64 := finite true 0 representable_zero

def ofQuotient (num : Int) (den : Nat) : Binary64 :=
  ofRatio (num < 0) (num.natAbs * unitsPerOne) den

def ofInt (n : Int) : Binary64 := ofQuotient n 1

def one : Binary64 := ofInt 1

def epsilon : Binary64 := ofQuotient 1 (2 ^ 52)

instance : OfNat Binary64 0 := ⟨zero⟩
instance : OfNat Binary64 1 := ⟨one⟩
instance : Inhabited Binary64 := ⟨zero⟩

def isNaN : Binary64 → Bool
  | nan => true
  | _ => false

def isFinite : Binary64 → Bool
  | finite .. => true
  | _ => false

def signed (negative : Bool) (units : Nat) : Int :=
  if negative then -(units : Int) else units

/-- The place of a number in the order, infinities one step outside the finite ones. -/
def rank : Binary64 → Option Int
  | nan => none
  | infinite negative => some (signed negative limit)
  | finite negative units _ => some (signed negative units)

/-- A comparison that fails as soon as one side is not a number. -/
def compareBy (test : Int → Int → Bool) (x y : Binary64) : Bool :=
  match x.rank, y.rank with
  | some a, some b => test a b
  | _, _ => false

instance : LE Binary64 := ⟨fun x y => compareBy (fun a b => a ≤ b) x y = true⟩
instance : LT Binary64 := ⟨fun x y => compareBy (fun a b => a < b) x y = true⟩
instance (x y : Binary64) : Decidable (x ≤ y) :=
  inferInstanceAs (Decidable (compareBy (fun a b => a ≤ b) x y = true))
instance (x y : Binary64) : Decidable (x < y) :=
  inferInstanceAs (Decidable (compareBy (fun a b => a < b) x y = true))

/-- Numeric equality: both zeros are equal, and nothing equals NaN. -/
def eqv (x y : Binary64) : Bool := compareBy (fun a b => a = b) x y

/-- The greater of two numbers; the first unless the second is strictly greater. -/
protected def max (x y : Binary64) : Binary64 := if x < y then y else x

/-- The smaller of two numbers; the first unless the second is strictly smaller. -/
protected def min (x y : Binary64) : Binary64 := if y < x then y else x

protected def neg : Binary64 → Binary64
  | nan => nan
  | infinite negative => infinite (!negative)
  | finite negative units h => finite (!negative) units h

protected def add : Binary64 → Binary64 → Binary64
  | nan, _ => nan
  | _, nan => nan
  | infinite s, infinite t => if s = t then infinite s else nan
  | infinite s, finite .. => infinite s
  | finite .., infinite t => infinite t
  | finite s m _, finite t n _ =>
    let total := signed s m + signed t n
    if total = 0 then finite (s && t) 0 representable_zero
    else ofRatio (total < 0) total.natAbs 1

protected def mul : Binary64 → Binary64 → Binary64
  | nan, _ => nan
  | _, nan => nan
  | infinite s, infinite t => infinite (s != t)
  | infinite s, finite t n _ => if n = 0 then nan else infinite (s != t)
  | finite s m _, infinite t => if m = 0 then nan else infinite (s != t)
  | finite s m _, finite t n _ => ofRatio (s != t) (m * n) unitsPerOne

protected def div : Binary64 → Binary64 → Binary64
  | nan, _ => nan
  | _, nan => nan
  | infinite _, infinite _ => nan
  | infinite s, finite t _ _ => infinite (s != t)
  | finite s _ _, infinite t => finite (s != t) 0 representable_zero
  | finite s m _, finite t n _ =>
    if n = 0 then (if m = 0 then nan else infinite (s != t))
    else ofRatio (s != t) (m * unitsPerOne) n

instance : Neg Binary64 := ⟨Binary64.neg⟩
instance : Add Binary64 := ⟨Binary64.add⟩
instance : Sub Binary64 := ⟨fun x y => x + -y⟩
instance : Mul Binary64 := ⟨Binary64.mul⟩
instance : Div Binary64 := ⟨Binary64.div⟩

/-! ### A narrower format -/

/-- The distance between neighbouring 32-bit numbers around `units`: 24 significant bits, and no
bits below `2 ^ (-149)`. -/
def narrowSpacing (units : Nat) : Nat := 2 ^ max (units.log2 - 23) 925

def narrowOfRatio (negative : Bool) (num den : Nat) : Binary64 :=
  let gap := narrowSpacing (num / den)
  let units := nearestEven num (den * gap) * gap
  if units < 2 ^ (1074 + 128) then ofUnits negative units else infinite negative

def narrow : Binary64 → Binary64
  | finite negative units _ => narrowOfRatio negative units 1
  | x => x

end Binary64

end FuzzyAlgebra

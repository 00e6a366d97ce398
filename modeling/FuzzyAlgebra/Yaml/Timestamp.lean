import FuzzyAlgebra.Binary64.Reading
import FuzzyAlgebra.Calendar
import FuzzyAlgebra.Mishap
import FuzzyAlgebra.Text.Reader
import FuzzyAlgebra.Value.Basic

/-!
# Moments in YAML texts

A day, or a day with a time that may have fractions of a second and a distance to universal time.
-/

namespace FuzzyAlgebra.Yaml

/-- How far the local time is ahead of universal time, or behind it. -/
structure ZoneOffset where
  behind : Bool
  minutes : Nat

/-- A time of day as it is written. -/
structure TimeOfDay where
  hour : Nat
  minute : Nat
  second : Nat
  /-- The digits after the point. -/
  fraction : List Char
  zone : Option ZoneOffset

/-- A moment as it is written. -/
structure Timestamp where
  year : Nat
  month : Nat
  day : Nat
  time : Option TimeOfDay
  /-- Whether month and day have two digits each. -/
  padded : Bool

namespace Timestamp

open Text (Reader expect isSpaceOrTab)

/-- Between `least` and `most` digits, as a number with the count of its digits. -/
def readDigits (least most : Nat) : Reader (Nat × Nat) := fun cs =>
  let digits := (cs.take most).takeWhile Char.isDigit
  if digits.length < least then none
  else some ((Binary64.digitsValue digits, digits.length), cs.drop digits.length)

/-- The distance to universal time, blanks before it allowed; the text may end instead, if there are
no blanks. -/
def readZone (cs : List Char) : Option (Option ZoneOffset) :=
  match cs, cs.dropWhile isSpaceOrTab with
  | [], _ => some none
  | _, ['Z'] => some (some ⟨false, 0⟩)
  | _, sign :: rest =>
    if sign = '+' ∨ sign = '-' then do
      let ((hours, _), rest) ← readDigits 1 2 rest
      match rest with
      | [] => pure (some ⟨sign = '-', 60 * hours⟩)
      | ':' :: rest => do
        let ((minutes, _), rest) ← readDigits 2 2 rest
        if rest.isEmpty then pure (some ⟨sign = '-', 60 * hours + minutes⟩) else none
      | _ => none
    else none
  | _, [] => none

def readFraction (cs : List Char) : List Char × List Char :=
  match cs with
  | '.' :: rest => (rest.takeWhile Char.isDigit, rest.dropWhile Char.isDigit)
  | cs => ([], cs)

def readTime (cs : List Char) : Option TimeOfDay := do
  let ((hour, _), rest) ← readDigits 1 2 cs
  let (_, rest) ← expect ':' rest
  let ((minute, _), rest) ← readDigits 2 2 rest
  let (_, rest) ← expect ':' rest
  let ((second, _), rest) ← readDigits 2 2 rest
  let (fraction, rest) := readFraction rest
  let zone ← readZone rest
  pure ⟨hour, minute, second, fraction, zone⟩

/-- What stands between a day and a time: a letter, or blanks. -/
def dropSeparator (cs : List Char) : Option (List Char) :=
  match cs with
  | 'T' :: rest => some rest
  | 't' :: rest => some rest
  | c :: rest => if isSpaceOrTab c then some (rest.dropWhile isSpaceOrTab) else none
  | [] => none

def read? (cs : List Char) : Option Timestamp := do
  let ((year, _), rest) ← readDigits 4 4 cs
  let (_, rest) ← expect '-' rest
  let ((month, m), rest) ← readDigits 1 2 rest
  let (_, rest) ← expect '-' rest
  let ((day, d), rest) ← readDigits 1 2 rest
  let padded := m = 2 && d = 2
  if rest.isEmpty then pure ⟨year, month, day, none, padded⟩
  else do
    let time ← readTime (← dropSeparator rest)
    pure ⟨year, month, day, some time, padded⟩

/-- Whether a plain text is taken for a moment: a day alone has to be written in full. -/
def isPlain (cs : List Char) : Bool :=
  match read? cs with
  | some t => t.padded || t.time.isSome
  | none => false

def micros (fraction : List Char) : Nat :=
  Binary64.digitsValue ((fraction ++ List.replicate 6 '0').take 6)

/-- Arguments in parentheses after the name of what they make. -/
def call (name : String) (arguments : List String) : String :=
  "datetime." ++ name ++ "(" ++ ", ".intercalate arguments ++ ")"

/-- The distance to universal time, as days less than none and seconds of a day. -/
def zoneText (z : ZoneOffset) : String :=
  let seconds := 60 * z.minutes
  if seconds = 0 then "datetime.timezone.utc"
  else if z.behind then
    call "timezone" [call "timedelta" ("days=-1" ::
      if seconds = 86400 then [] else ["seconds=" ++ toString (86400 - seconds)])]
  else call "timezone" [call "timedelta" ["seconds=" ++ toString seconds]]

def dayArguments (t : Timestamp) : List String := [t.year, t.month, t.day].map toString

/-- A time of day; seconds and their fractions are left out if nothing follows that counts. -/
def timeArguments (t : TimeOfDay) : List String :=
  let micros := micros t.fraction
  [toString t.hour, toString t.minute]
    ++ (if t.second = 0 ∧ micros = 0 then [] else [toString t.second])
    ++ (if micros = 0 then [] else [toString micros])
    ++ (t.zone.map fun z => "tzinfo=" ++ zoneText z).toList

/-- The moment in millionths of a second of universal time, if its distance to it is known. -/
def instant? (t : Timestamp) : Option Int := do
  let time ← t.time
  let zone ← time.zone
  let minutes : Int := 60 * time.hour + time.minute
  let local_ : Int := 1440 * Calendar.dayNumber t.year t.month t.day + minutes
  let universal := if zone.behind then local_ + zone.minutes else local_ - zone.minutes
  pure ((60 * universal + time.second) * 1000000 + micros time.fraction)

/-- Whether there is such a time; a zone is less than a day away. -/
def isTime (t : TimeOfDay) : Bool :=
  t.hour < 24 && t.minute < 60 && t.second < 60 && t.zone.all fun z => z.minutes < 24 * 60

def toValue (t : Timestamp) : Except Mishap Value :=
  if !Calendar.isDay t.year t.month t.day then .error .malformed
  else
    match t.time with
    | none => .ok (.object "date" (Thunk.pure (some (call "date" t.dayArguments))) none)
    | some time =>
      if isTime time then
        .ok (.object "datetime"
          (Thunk.pure (some (call "datetime" (t.dayArguments ++ timeArguments time)))) none)
      else .error .malformed

end Timestamp

end FuzzyAlgebra.Yaml

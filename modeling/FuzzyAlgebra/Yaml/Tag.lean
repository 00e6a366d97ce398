import FuzzyAlgebra.Yaml.Timestamp

/-!
# Tags

A tag says what kind of value a node has. A plain scalar that carries none is given one by the way
it is written.
-/

namespace FuzzyAlgebra.Yaml

/-- A kind of value. -/
inductive Tag where
  | null
  | bool
  | int
  | float
  | binary
  | timestamp
  | orderedMap
  | pairs
  | set
  | text
  | sequence
  | mapping
  /-- A key whose value is merged into the mapping around it. -/
  | merge
  /-- A key for the value that a mapping stands for. -/
  | value
  /-- A tag without a meaning here. -/
  | unknown
  deriving DecidableEq, Repr

namespace Tag

def isCollection (t : Tag) : Bool :=
  t = sequence || t = mapping || t = set || t = pairs || t = orderedMap

def standard : String := "tag:yaml.org,2002:"

/-- The tags that a text can name, by the ends of their names. -/
def named : List (String × Tag) :=
  [("null", null), ("bool", bool), ("int", int), ("float", float), ("binary", binary),
    ("timestamp", timestamp), ("omap", orderedMap), ("pairs", pairs), ("set", set), ("str", text),
    ("seq", sequence), ("map", mapping), ("merge", merge), ("value", value)]

def ofName (name : String) : Tag :=
  ((named.find? fun (ending, _) => standard ++ ending = name).map Prod.snd).getD unknown

/-! ### Tags of plain scalars -/

def boolWords : List String :=
  ["yes", "Yes", "YES", "no", "No", "NO", "true", "True", "TRUE", "false", "False", "FALSE",
    "on", "On", "ON", "off", "Off", "OFF"]

def nullWords : List String := ["~", "null", "Null", "NULL"]

def isDigitOrUnderscore (c : Char) : Bool := c.isDigit || c = '_'

def dropSign : List Char → List Char
  | '+' :: cs => cs
  | '-' :: cs => cs
  | cs => cs

/-- Whether this is a digit, followed by digits and underscores. -/
def isDigits : List Char → Bool
  | c :: cs => c.isDigit && cs.all isDigitOrUnderscore
  | [] => false

def isExponent : List Char → Bool
  | [] => true
  | e :: sign :: digits =>
    (e = 'e' || e = 'E') && (sign = '+' || sign = '-') && !digits.isEmpty && digits.all Char.isDigit
  | _ => false

def isSixtieth (part : List Char) : Bool :=
  match part with
  | [a] => a.isDigit
  | [a, b] => '0' ≤ a && a ≤ '5' && b.isDigit
  | _ => false

def colonParts (cs : List Char) : List (List Char) :=
  ((String.ofList cs).splitOn ":").map String.toList

/-- Whether this is a number in base sixty whose first digit passes a test and whose last digit
passes another. -/
def isBaseSixty (first last : List Char → Bool) (cs : List Char) : Bool :=
  match colonParts cs with
  | head :: rest =>
    first head && rest.dropLast.all isSixtieth && (rest.getLast?.map last).getD false
  | [] => false

def isPointed (whole : List Char → Bool) (places : List Char → Bool) (cs : List Char) : Bool :=
  match cs.dropWhile (· ≠ '.') with
  | '.' :: rest => whole (cs.takeWhile (· ≠ '.')) && places rest
  | _ => false

def arePlaces (cs : List Char) : Bool := isExponent (cs.dropWhile isDigitOrUnderscore)

def isFloat (cs : List Char) : Bool :=
  let unsigned := dropSign cs
  isPointed isDigits arePlaces unsigned
    || isPointed List.isEmpty (fun rest => (rest.headD ' ').isDigit && arePlaces rest) cs
    || isBaseSixty isDigits (isPointed isSixtieth fun rest => rest.all isDigitOrUnderscore) unsigned
    || [".inf", ".Inf", ".INF"].contains (String.ofList unsigned)
    || [".nan", ".NaN", ".NAN"].contains (String.ofList cs)

/-- Whether this is a digit from one to nine, followed by digits and underscores. -/
def isPositive (cs : List Char) : Bool := isDigits cs && cs.headD '0' ≠ '0'

def isHexDigit (c : Char) : Bool :=
  c.isDigit || ('a' ≤ c && c ≤ 'f') || ('A' ≤ c && c ≤ 'F')

/-- Whether a plain scalar writes a whole number, in one of five bases. -/
def isInt (cs : List Char) : Bool :=
  match dropSign cs with
  | ['0'] => true
  | '0' :: 'b' :: rest => !rest.isEmpty && rest.all fun c => c = '0' || c = '1' || c = '_'
  | '0' :: 'x' :: rest => !rest.isEmpty && rest.all fun c => isHexDigit c || c = '_'
  | '0' :: rest => rest.all fun c => ('0' ≤ c && c ≤ '7') || c = '_'
  | unsigned => isPositive unsigned || isBaseSixty isPositive isSixtieth unsigned

def dropLastLineFeed (cs : List Char) : List Char :=
  if cs.getLast? = some '\n' then cs.dropLast else cs

def ofPlain (s : String) : Tag :=
  let cs := dropLastLineFeed s.toList
  let word := String.ofList cs
  if s.isEmpty || nullWords.contains word then null
  else if boolWords.contains word then bool
  else if isFloat cs then float
  else if isInt cs then int
  else if word = "<<" then merge
  else if Timestamp.isPlain cs then timestamp
  else if word = "=" then value
  else if word = "!" ∨ word = "&" ∨ word = "*" then unknown
  else text

end Tag

end FuzzyAlgebra.Yaml

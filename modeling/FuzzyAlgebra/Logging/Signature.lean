import FuzzyAlgebra.Value.Order

/-!
# Parameters and arguments

How the arguments of a call are matched with the parameters of a function. `Signature.matched?` is
the lenient matching that a log shows, where arguments may be missing; `Signature.problem?` is why a
call itself would fail.
-/

namespace FuzzyAlgebra

/-- How a parameter takes arguments. -/
inductive ParameterKind where
  /-- By position or by name. -/
  | ordinary (optional : Bool)
  /-- By name only; may be left out. -/
  | named
  /-- All arguments by position that are left over. -/
  | remainingPositions
  /-- All arguments by name that are left over. -/
  | remainingNames
  deriving DecidableEq, Repr

structure Parameter where
  name : String
  kind : ParameterKind
  deriving DecidableEq, Repr

namespace Parameter

def isOrdinary (p : Parameter) : Bool :=
  match p.kind with
  | .ordinary _ => true
  | _ => false

def isRequired (p : Parameter) : Bool := p.kind = .ordinary false

def isNameable (p : Parameter) : Bool := p.isOrdinary || p.kind = .named

end Parameter

/-- A function as far as calls are concerned. -/
structure Signature where
  name : String
  qualifiedName : String
  parameters : List Parameter

/-- The arguments of a call. -/
structure Arguments where
  positions : List Value
  names : List (String × Value)

namespace Arguments

def isEmpty (a : Arguments) : Bool := a.positions.isEmpty && a.names.isEmpty

end Arguments

namespace Signature

def ordinary (s : Signature) : List Parameter := s.parameters.filter Parameter.isOrdinary

def nameable (s : Signature) : List String :=
  (s.parameters.filter Parameter.isNameable).map Parameter.name

def takesAllPositions (s : Signature) : Bool :=
  s.parameters.any fun p => p.kind = .remainingPositions

def takesAllNames (s : Signature) : Bool :=
  s.parameters.any fun p => p.kind = .remainingNames

/-- The ordinary parameters that arguments by position reach. -/
def reached (s : Signature) (a : Arguments) : List String :=
  (s.ordinary.take a.positions.length).map Parameter.name

def strangers (s : Signature) (a : Arguments) : List (String × Value) :=
  a.names.filter fun (name, _) => !s.nameable.contains name

/-- Why the arguments by name do not fit: the first that repeats one given by position, or that no
parameter takes. -/
def nameProblem? (s : Signature) (a : Arguments) : Option String :=
  a.names.findSome? fun (name, _) =>
    if (s.reached a).contains name then
      some (s.qualifiedName ++ "() got multiple values for argument '" ++ name ++ "'")
    else if s.takesAllNames || s.nameable.contains name then none
    else some (s.qualifiedName ++ "() got an unexpected keyword argument '" ++ name ++ "'")

/-- The count of arguments by position that the function takes, in words. -/
def positionsText (s : Signature) : String :=
  let most := s.ordinary.length
  let least := (s.ordinary.filter Parameter.isRequired).length
  if least = most then
    toString most ++ " positional argument" ++ (if most = 1 then "" else "s")
  else "from " ++ toString least ++ " to " ++ toString most ++ " positional arguments"

def positionProblem? (s : Signature) (a : Arguments) : Option String :=
  let given := a.positions.length
  if s.takesAllPositions || given ≤ s.ordinary.length then none
  else some (s.qualifiedName ++ "() takes " ++ s.positionsText ++ " but " ++ toString given
    ++ (if given = 1 then " was given" else " were given"))

def enumeration : List String → String
  | [] => ""
  | [x] => "'" ++ x ++ "'"
  | [x, y] => "'" ++ x ++ "' and '" ++ y ++ "'"
  | names =>
    String.join (names.dropLast.map fun x => "'" ++ x ++ "', ") ++ "and '"
      ++ names.getLastD "" ++ "'"

def missing (s : Signature) (a : Arguments) : List String :=
  ((s.ordinary.drop a.positions.length).filter Parameter.isRequired).map Parameter.name
    |>.filter fun name => !a.names.any fun (n, _) => n = name

def missingProblem? (s : Signature) (a : Arguments) : Option String :=
  match s.missing a with
  | [] => none
  | names =>
    some (s.qualifiedName ++ "() missing " ++ toString names.length
      ++ " required positional argument" ++ (if names.length = 1 then "" else "s") ++ ": "
      ++ enumeration names)

def problem? (s : Signature) (a : Arguments) : Option String :=
  s.nameProblem? a <|> s.positionProblem? a <|> s.missingProblem? a

/-- The argument of one parameter, the ordinary ones counted from zero. -/
def argument? (s : Signature) (a : Arguments) (place : Nat) (p : Parameter) : Option Value :=
  let byName := (a.names.find? fun (name, _) => name = p.name).map Prod.snd
  match p.kind with
  | .ordinary _ => a.positions[place]? <|> byName
  | .named => byName
  | .remainingPositions =>
    match a.positions.drop s.ordinary.length with
    | [] => none
    | rest => some (.tuple rest)
  | .remainingNames =>
    match s.strangers a with
    | [] => none
    | rest => some (.dict (rest.map fun (name, v) => (.text name, v)))

/-- The parameters with their arguments, in order, those without one left out; nothing if there are
arguments that no parameter takes. -/
def matched? (s : Signature) (a : Arguments) : Option (List (String × Value)) :=
  if (s.nameProblem? a).isSome || (s.positionProblem? a).isSome then none
  else
    some (s.parameters.zipIdx.filterMap fun (p, place) =>
      (s.argument? a place p).map fun v => (p.name, v))

end Signature

end FuzzyAlgebra

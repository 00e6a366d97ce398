import FuzzyAlgebra.Scope.Frame

/-!
# Stacks of frames

The root frame is always there; the others are entered and left in turn. A name is always bound in
the innermost frame and looked up from the innermost frame to the root, so an inner binding hides
outer ones and never changes them.
-/

namespace FuzzyAlgebra

/-- A root frame and the frames entered since, the innermost first. -/
structure ScopeStack (τ : Type) where
  root : Frame τ
  inner : List (Frame τ)

namespace ScopeStack

variable {τ : Type}

def rootName : String := "global"

def defaultName : String := "block"

def empty : ScopeStack τ := ⟨.empty 0 rootName, []⟩

def inwardOut (s : ScopeStack τ) : List (Frame τ) := s.inner ++ [s.root]

def frames (s : ScopeStack τ) : List (Frame τ) := s.root :: s.inner.reverse

def depth (s : ScopeStack τ) : Nat := s.inner.length + 1

def current (s : ScopeStack τ) : Frame τ := s.inner.headD s.root

def mapCurrent (f : Frame τ → Frame τ) (s : ScopeStack τ) : ScopeStack τ :=
  match s.inner with
  | [] => ⟨f s.root, []⟩
  | frame :: rest => ⟨s.root, f frame :: rest⟩

def find? (s : ScopeStack τ) (name : String) : Option (Binding τ) :=
  s.inwardOut.findSome? fun frame => frame.get? name

/-- The names that can be looked up, in the order in which they were first bound. -/
def names (s : ScopeStack τ) : List String := (s.frames.flatMap Frame.names).eraseDups

def display (s : ScopeStack τ) : String :=
  let texts := s.frames.map fun f => f.name ++ "[" ++ toString f.size ++ "]"
  "ScopeStack(" ++ " > ".intercalate texts ++ ")"

/-- A value looked up as a name. Lists and dictionaries cannot be looked up, and values that are no
text are found nowhere. -/
def nameOf (v : Value) : Except Mishap (Option String) :=
  match v with
  | .text name => .ok (some name)
  | v => if v.isHashable then .ok none else .error .wrongType

def isDefined (s : ScopeStack τ) (name : Value) : Traced Bool := do
  let name ← .ofMishap (nameOf name)
  pure (name.any fun name => s.inwardOut.any fun frame => frame.contains name)

def lookup (s : ScopeStack τ) (name : Value) : Traced (Binding τ) := do
  let text ← .ofMishap (nameOf name)
  match text.bind s.find? with
  | some binding => pure binding
  | none =>
    .failQuoting name .warning Channel.scope
      ("Undefined variable '" ++ name.plain ++ "' (searched " ++ toString s.depth ++ " scope(s))")
      (.undefinedVariable name (s.inwardOut.map Frame.name))

variable [ClassHierarchy τ]

def typeName (t : Option τ) : String := (t.map ClassHierarchy.name).getD ""

def expectedTag : TagArgument τ → Option τ
  | .tag t => some t
  | _ => none

/-- The set bound to a name, for use as a set over the expected type. -/
def get (s : ScopeStack τ) (name : Value) (expected : TagArgument τ) : Traced (FuzzySet τ) := do
  let binding ← s.lookup name
  if ← binding.accepts expected then pure binding.value
  else
    let actual := typeName binding.elementType
    let wanted := typeName (expectedTag expected)
    .failQuoting name .error Channel.scope
      ("Variable '" ++ name.plain ++ "' holds a set over " ++ actual ++ ", requested as " ++ wanted)
      (.requestedMismatch name wanted actual)

/-- The binding of a name, if name, set and declared type fit together. -/
def checkBinding (name : Value) (value : Operand τ) (declared : TagArgument τ) :
    Traced (Binding τ) := do
  let name ← checkName name
  let set ← checkSet name value
  let tag ← validateTag declared "element_type"
  if Binding.fits set.elementType tag then
    pure ⟨name, set, tag <|> set.elementType⟩
  else
    let actual := typeName set.elementType
    let wanted := typeName tag
    .failWith .error Channel.scope
      ("Binding '" ++ name ++ "' declared over " ++ wanted ++ " but set is over " ++ actual)
      (.declaredMismatch name wanted actual)
where
  /-- A name is a text that is not empty. -/
  checkName (v : Value) : Traced String :=
    let invalid := .failQuoting v .error Channel.scope ("Invalid variable name: " ++ v.display)
      (.invalidName v)
    match v with
    | .text name => if name = "" then invalid else pure name
    | _ => invalid
  /-- Only a fuzzy set can be bound. -/
  checkSet (name : String) (o : Operand τ) : Traced (FuzzySet τ) :=
    match o with
    | .set s => pure s
    | .value v =>
      .failWith .error Channel.scope
        ("Cannot bind '" ++ name ++ "' to non-set value of type " ++ v.typeName)
        (.boundNotASet name v.typeName)

def assign (name : Value) (value : Operand τ) (declared : TagArgument τ) :
    Action (ScopeStack τ) Unit := do
  let binding ← checkBinding name value declared
  .modify (mapCurrent fun frame => frame.bind binding)
  let s ← Action.read
  Traced.log .debug Channel.scope
    ("Assigned '" ++ binding.name ++ "' in scope '" ++ s.current.name ++ "' (depth "
      ++ toString s.depth ++ ")")

omit [ClassHierarchy τ] in
def enter (key : Nat) (name : String) : Action (ScopeStack τ) (Frame τ) := do
  .modify fun s => ⟨s.root, .empty key name :: s.inner⟩
  let s ← Action.read
  Traced.log .debug Channel.scope
    ("Entered scope '" ++ name ++ "' (depth " ++ toString s.depth ++ ")")
  pure s.current

omit [ClassHierarchy τ] in
def exit : Action (ScopeStack τ) (Frame τ) := do
  let s ← Action.read
  match s.inner with
  | [] =>
    Traced.failWith .error Channel.scope "Attempted to exit the root scope"
      (.cannotExitRoot s.depth)
  | frame :: rest =>
    .write ⟨s.root, rest⟩
    Traced.log .debug Channel.scope
      ("Exited scope '" ++ frame.name ++ "' with " ++ toString frame.size
        ++ " binding(s) (depth " ++ toString (s.depth - 1) ++ ")")
    pure frame

omit [ClassHierarchy τ] in
/-- Runs the body in a new frame and leaves the innermost frame afterwards, however the body
ended. -/
def within {α : Type} (key : Nat) (name : String) (body : Frame τ → Action (ScopeStack τ) α) :
    Action (ScopeStack τ) α :=
  .bracket (enter key name) body exit

end ScopeStack

end FuzzyAlgebra

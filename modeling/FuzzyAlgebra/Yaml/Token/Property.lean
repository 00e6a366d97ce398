import FuzzyAlgebra.Yaml.Token.Scalar

/-!
# Reading names, tags and directives

What a node can carry in front of it, and what a document can say about itself.
-/

namespace FuzzyAlgebra.Yaml

def anchorName (c : Cursor) : Except Halt (String × Cursor) :=
  let (name, c) := c.advance.span isNameChar
  if name.isEmpty then c.refuse
  else if isGap c.peek || isOneOf "?:,]\x7d%@\x60" c.peek then .ok (String.ofList name, c)
  else c.refuse

/-- Bytes written as percent signs and two hexadecimal digits each. -/
def percentBytes : Nat → Cursor → Except Halt (List UInt8 × Cursor)
  | 0, c => .ok ([], c)
  | fuel + 1, c =>
    if c.peek = '%' then
      match hexNumber? c.advance 2 with
      | none => c.refuseAt (1 + hexRun c.advance)
      | some n => do
        let (bytes, c) ← percentBytes fuel (c.advanceBy 3)
        pure (UInt8.ofNat n :: bytes, c)
    else .ok ([], c)

def isTagChar (c : Char) : Bool :=
  c.isAlphanum || isOneOf "-;/?:@&=+$,_.!~*'()[]" c

def tagBodyFrom : Nat → Cursor → Except Halt (List Char × Cursor)
  | 0, c => .ok ([], c)
  | fuel + 1, c =>
    let (run, c) := c.span isTagChar
    if c.peek = '%' then do
      let (bytes, c) ← percentBytes c.fuel c
      match String.fromUTF8? ⟨bytes.toArray⟩ with
      | none => c.refuse
      | some s => do
        let (more, c) ← tagBodyFrom fuel c
        pure (run ++ s.toList ++ more, c)
    else .ok (run, c)

def tagBody (c : Cursor) : Except Halt (String × Cursor) := do
  let (body, last) ← tagBodyFrom c.fuel c
  if last.index = c.index then c.refuse else pure (String.ofList body, last)

def tagHandle (c : Cursor) : Except Halt (String × Cursor) :=
  if c.peek ≠ '!' then c.refuse
  else if c.peekAt 1 = ' ' then .ok ("!", c.advance)
  else
    let (name, last) := c.advance.span isNameChar
    if last.peek = '!' then .ok (String.ofList ('!' :: name ++ ['!']), last.advance)
    else last.refuse

/-- Whether an exclamation mark stands in the rest of the word. -/
def hasSecondMark (cs : List Char) : Bool :=
  (cs.takeWhile fun x => !isBreakOrEnd x && x ≠ ' ').contains '!'

def tagToken (c : Cursor) : Except Halt (Token × Cursor) := do
  let (token, c) ←
    if c.peekAt 1 = '<' then do
      let (body, c) ← tagBody (c.advanceBy 2)
      if c.peek = '>' then pure (Token.tag none body, c.advance) else c.refuse
    else if isGap (c.peekAt 1) then pure (.tag none "!", c.advance)
    else do
      let (handle, c) ← if hasSecondMark c.advance.rest then tagHandle c else pure ("!", c.advance)
      let (body, c) ← tagBody c
      pure (.tag (some handle) body, c)
  if isBreakOrEnd c.peek || c.peek = ' ' then pure (token, c) else c.refuse

def versionNumber (c : Cursor) : Except Halt (Nat × Cursor) :=
  let (digits, c) := c.span Char.isDigit
  if digits.isEmpty then c.refuse
  else if Text.mostDigits < digits.length then c.mishap .malformed
  else .ok (digits.foldl (fun n x => 10 * n + (x.toNat - 48)) 0, c)

def versionDirective (c : Cursor) : Except Halt (Token × Cursor) := do
  let (major, c) ← versionNumber c.skipSpaces
  if c.peek ≠ '.' then c.refuse
  else
    let (minor, c) ← versionNumber c.advance
    if isBreakOrEnd c.peek || c.peek = ' ' then pure (.versionDirective major minor, c)
    else c.refuse

def tagDirective (c : Cursor) : Except Halt (Token × Cursor) := do
  let (handle, c) ← tagHandle c.skipSpaces
  if c.peek ≠ ' ' then c.refuse
  else
    let (expansion, c) ← tagBody c.skipSpaces
    if isBreakOrEnd c.peek || c.peek = ' ' then pure (.tagDirective handle expansion, c)
    else c.refuse

def directiveToken (c : Cursor) : Except Halt (Token × Cursor) := do
  let (name, c) := c.advance.span isNameChar
  if name.isEmpty || !(isBreakOrEnd c.peek || c.peek = ' ') then c.refuse
  else
    let (token, c) ←
      if String.ofList name = "YAML" then versionDirective c
      else if String.ofList name = "TAG" then tagDirective c
      else pure (.otherDirective, c.skipLine)
    pure (token, ← restOfLine c)

end FuzzyAlgebra.Yaml

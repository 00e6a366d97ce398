import FuzzyAlgebra.Text.Utf8
import FuzzyAlgebra.Yaml.Cursor

/-!
# Sources of YAML texts

The bytes of a text are taken and checked in pieces, and only when the piece is needed. A fault in a
later piece does not show if the text before it is not well formed.
-/

namespace FuzzyAlgebra.Yaml

open Text

/-- Bytes on their way to characters. -/
structure Feed where
  /-- The bytes that have not been taken. -/
  bytes : List UInt8
  /-- The character of which some bytes are missing. -/
  pending : Utf8.Open
  /-- Whether a carriage return waits for what follows it. -/
  held : Bool
  /-- The characters that nobody has asked for yet. -/
  ready : List Char
  /-- How many bytes were taken last, and how many characters they made. -/
  taken : Nat × Nat

namespace Feed

def start (bytes : List UInt8) : Feed := ⟨bytes, .closed, false, [], (0, 0)⟩

def portion : Nat := 8192

/-- Lines ended by line feeds, and whether a carriage return at the end waits for what follows. -/
def plainLines : List Char → List Char × Bool
  | [] => ([], false)
  | ['\r'] => ([], true)
  | '\r' :: '\n' :: cs => ((plainLines cs).map ('\n' :: ·) id)
  | '\r' :: cs => ((plainLines cs).map ('\n' :: ·) id)
  | c :: cs => ((plainLines cs).map (c :: ·) id)

/-- Takes bytes when some characters are wanted: as many as those would need if they were like the
ones before them. -/
def refill? (wanted : Nat) (f : Feed) : Option Feed := do
  let size := max portion (max wanted (wanted * f.taken.1 / f.taken.2))
  let piece := f.bytes.take size
  let (cs, pending) ← Utf8.decode? f.pending piece
  let final := piece.isEmpty
  if final && pending.missing ≠ 0 then none
  else
    let (lines, held) := plainLines (if f.held then '\r' :: cs else cs)
    let lines := if final && held then lines ++ ['\n'] else lines
    pure ⟨f.bytes.drop size, pending, held && !final, f.ready ++ lines,
      (piece.length, lines.length)⟩

def read? (n : Nat) : Nat → Feed → Option (List Char × Feed)
  | 0, f => some ([], f)
  | fuel + 1, f => do
    let got := f.ready.take n
    let rest := { f with ready := f.ready.drop n }
    if got.length = n then pure (got, rest)
    else
      let next ← rest.refill? (n - got.length)
      if f.bytes.isEmpty && next.ready.isEmpty then pure (got, next)
      else
        let (more, last) ← next.read? (n - got.length) fuel
        pure (got ++ more, last)

def pieceLength : Nat := 4096

def nextPiece? (f : Feed) : Option (List Char × Feed) := f.read? pieceLength (f.bytes.length + 2)

end Feed

/-- The characters of a text up to the piece with a fault, and the fault. -/
structure Source where
  chars : List Char
  fault : Option Problem

namespace Source

def broken (p : Problem) : Source := ⟨[], some p⟩

def gather (piece : List Char) (rest : Source) : Source :=
  if piece.all isAcceptable then ⟨piece ++ rest.chars, rest.fault⟩ else broken .malformed

def ofFeed : Nat → Feed → Source
  | 0, _ => ⟨[], none⟩
  | fuel + 1, f =>
    match f.nextPiece? with
    | none => broken (.mishap .undecodable)
    | some ([], _) => ⟨[], none⟩
    | some (piece, f) => gather piece (ofFeed fuel f)

/-- The source of a text. Its first two pieces are taken together. -/
def ofBytes (bytes : List UInt8) : Source :=
  let first := do
    let (a, f) ← (Feed.start bytes).nextPiece?
    let (b, f) ← f.nextPiece?
    pure (a ++ b, f)
  match first with
  | none => broken (.mishap .undecodable)
  | some (piece, f) => gather piece (ofFeed (bytes.length + 1) f)

def faultAt? (s : Source) (index : Nat) : Option Problem :=
  s.fault.filter fun _ => s.chars.length ≤ index

end Source

end FuzzyAlgebra.Yaml

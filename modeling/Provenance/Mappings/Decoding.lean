import Provenance.Mappings.Vlq
import Provenance.Text.Lines

/-!
# Decoding the mappings text

Generated lines are separated by semicolons and the segments of a line by commas; empty
segments are skipped. The numbers of a segment are differences to the previous segment: of
the generated column, which starts anew on each line, and of the source, its line and column
and the name, which run through the whole text. Running values are words of 32 bits that
wrap around.
-/

namespace Provenance.Mappings

open Provenance.Text

/-- Where a segment comes from, with lines and columns counted from 0. -/
structure RawOrigin where
  source : UInt32
  line : UInt32
  column : UInt32
  deriving DecidableEq, Repr

/-- A decoded segment, with lines and columns counted from 0. -/
structure RawSegment where
  line : UInt32
  column : UInt32
  origin : Option RawOrigin
  name : Option UInt32
  deriving DecidableEq, Repr

/-- The running values that the next differences are added to. -/
structure Running where
  column : UInt32
  source : UInt32
  line : UInt32
  sourceColumn : UInt32
  name : UInt32
  deriving DecidableEq, Repr

/-- The running values at the beginning of the text. -/
def Running.zero : Running := ⟨0, 0, 0, 0, 0⟩

/-- A word moved by a difference, wrapping around. -/
def move (x : UInt32) (difference : Int) : UInt32 :=
  UInt32.ofNat (((x.toNat : Int) + difference) % 2 ^ 32).toNat

/-- Sizes of the tables that segments refer to. -/
structure Tables where
  sources : Nat
  names : Nat

/-- Apply the differences of a segment. The column comes first, then the source, whose
reference is checked before its line and column, and the name last. -/
def applyNumbers (tables : Tables) (line : UInt32) (r : Running) :
    List Int → Except MappingsError (Running × RawSegment)
  | [column] =>
    let r := { r with column := move r.column column }
    .ok (r, ⟨line, r.column, none, none⟩)
  | [column, source, sourceLine, sourceColumn] =>
    let r : Running := ⟨move r.column column, move r.source source, move r.line sourceLine,
      move r.sourceColumn sourceColumn, r.name⟩
    if tables.sources ≤ r.source.toNat then .error (.badSource r.source)
    else .ok (r, ⟨line, r.column, some ⟨r.source, r.line, r.sourceColumn⟩, none⟩)
  | [column, source, sourceLine, sourceColumn, name] =>
    let r : Running := ⟨move r.column column, move r.source source, move r.line sourceLine,
      move r.sourceColumn sourceColumn, move r.name name⟩
    if tables.sources ≤ r.source.toNat then .error (.badSource r.source)
    else if tables.names ≤ r.name.toNat then .error (.badName r.name)
    else .ok (r, ⟨line, r.column, some ⟨r.source, r.line, r.sourceColumn⟩, some r.name⟩)
  | numbers => .error (.segmentSize numbers.length)

/-- Decode the segments of one generated line. -/
def decodeLine (tables : Tables) (line : UInt32) :
    Running → List (List Char) → Except MappingsError (Running × List RawSegment)
  | r, [] => .ok (r, [])
  | r, [] :: rest => decodeLine tables line r rest
  | r, text :: rest => do
    let ns ← numbers text
    let (r, segment) ← applyNumbers tables line r ns
    let (r, segments) ← decodeLine tables line r rest
    return (r, segment :: segments)

/-- Decode generated lines, the first of which has the number `line`. -/
def decodeLines (tables : Tables) :
    Nat → Running → List (List Char) → Except MappingsError (List RawSegment)
  | _, _, [] => .ok []
  | line, r, text :: rest => do
    let (r, segments) ←
      decodeLine tables (UInt32.ofNat line) { r with column := 0 } (splitAt ',' text)
    let more ← decodeLines tables (line + 1) r rest
    return segments ++ more

/-- The segments of a mappings text, in the order in which they are written. -/
def decode (tables : Tables) (mappings : String) : Except MappingsError (List RawSegment) :=
  decodeLines tables 0 .zero (splitAt ';' mappings.toList)

end Provenance.Mappings

import Provenance.Mappings.Decoding
import Provenance.Position
import Provenance.Search
import Provenance.SourceMap
import Provenance.Wording

/-!
# Atlases

An atlas is the decoded form of a source map, ready for lookups in both directions. Both are
floor searches: a segment is responsible for all positions from its own up to that of the
next segment. Of segments that share a key, the first one answers, which is the one written
first for a generated position and the one generated first for a source place.

## Implementation notes

The two tables are sorted once and never changed, and each lookup is a binary search. A map
that cannot be decoded as a whole gives no atlas.

Segments that begin together keep the order in which the mappings name them. The decoder sorts what
it has read by generated position before an atlas sorts it again; it is assumed that it leaves such
segments in their order, as a stable sort does, and both are then one sort (`rawLe`).
-/

namespace Provenance

open Provenance.Mappings

/-- Why a source map gives no atlas. -/
inductive MapError
  | json (wording : String)
  | unsupportedVersion (version : UInt32)
  | mappings (cause : MappingsError)
  | positionOutOfRange (line column : UInt32)
  deriving DecidableEq, Repr

namespace MapError

/-- What is shown to the user. -/
def message : MapError → String
  | .json wording => "Malformed source map JSON: " ++ wording
  | .unsupportedVersion v =>
    "Unsupported source map version " ++ toString v ++ " (expected 3)"
  | .mappings cause => "Malformed source map mappings: " ++ cause.message
  | .positionOutOfRange line column =>
    "Mapping position is out of range (line " ++ toString line ++ ", column " ++
      toString column ++ ")"

end MapError

/-- Where a piece of generated text begins, where it comes from and what it is called there. -/
structure Segment where
  generated : Position
  origin : Option Place
  name : Option UInt32
  deriving DecidableEq, Repr

namespace Segment

/-- The greatest line or column, counted from 0, that a segment may have. -/
def limit : UInt32 := 2147483647

/-- The position of a line and column that both count from 0, unless one is out of range. -/
def position? (line column : UInt32) : Except MapError Position :=
  if limit < line ∨ limit < column then .error (.positionOutOfRange line column)
  else .ok ⟨line + 1, column⟩

/-- The segment with its positions checked, the generated one first. -/
def ofRaw (raw : RawSegment) : Except MapError Segment := do
  let generated ← position? raw.line raw.column
  match raw.origin with
  | none => return ⟨generated, none, raw.name⟩
  | some o =>
    let position ← position? o.line o.column
    return ⟨generated, some ⟨o.source, position⟩, raw.name⟩

end Segment

/-- A decoded source map. `segments` is sorted by generated position; `origins` pairs each
source place with the generated position of its segment and is sorted by place first. -/
structure Atlas where
  sources : Array String
  sourceRoot : Option String
  contents : Array (Option String)
  names : Array String
  segments : Array Segment
  origins : Array (Place × Position)
  deriving DecidableEq, Repr

namespace Atlas

/-- Decoded segments are ordered by generated line and column. -/
def rawLe (a b : RawSegment) : Bool :=
  a.line < b.line || (a.line == b.line && a.column ≤ b.column)

/-- Pairs of places are ordered by source place, then by generated position. -/
def originLe (a b : Place × Position) : Bool :=
  a.1 < b.1 || (a.1 == b.1 && a.2 ≤ b.2)

/-- The places that segments come from, with their generated positions. -/
def originsOf (segments : List Segment) : List (Place × Position) :=
  segments.filterMap fun s => s.origin.map fun place => (place, s.generated)

/-- Decode a source map. -/
def ofSourceMap (m : SourceMap) : Except MapError Atlas := do
  if m.version ≠ 3 then .error (.unsupportedVersion m.version)
  else
    let raw ← (decode ⟨m.sources.length, m.names.length⟩ m.mappings).mapError .mappings
    let segments ← (raw.mergeSort rawLe).mapM Segment.ofRaw
    return {
      sources := m.sources.toArray
      sourceRoot := m.sourceRoot
      contents := (m.sourcesContent.getD (m.sources.map fun _ => none)).toArray
      names := m.names.toArray
      segments := segments.toArray
      origins := ((originsOf segments).mergeSort originLe).toArray
    }

/-- Read and decode a source map given as JSON text. -/
def ofJson (wording : Wording) (text : String) : Except MapError Atlas :=
  match SourceMap.ofJson? text with
  | some m => ofSourceMap m
  | none => .error (.json (wording.map text))

/-- The generated position of the greatest mapped place of `source` up to the given position. -/
def forward? (a : Atlas) (source : UInt32) (position : Position) : Option Position :=
  match partitionPoint (fun o => decide (o.1 ≤ ⟨source, position⟩)) a.origins with
  | 0 => none
  | last + 1 => do
    let (found, _) ← a.origins[last]?
    if found.source ≠ source then none
    else
      let first := partitionPoint (fun o => decide (o.1 < found)) a.origins
      (a.origins[first]?).map Prod.snd

/-- The segment responsible for a generated position, which begins on the same line. -/
def segment? (a : Atlas) (position : Position) : Option Segment :=
  match partitionPoint (fun s => decide (s.generated ≤ position)) a.segments with
  | 0 => none
  | last + 1 => do
    let found ← a.segments[last]?
    if found.generated.line ≠ position.line then none
    else a.segments[partitionPoint (fun s => decide (s.generated < found.generated)) a.segments]?

/-- The source place that a generated position comes from. -/
def reverse? (a : Atlas) (position : Position) : Option Place :=
  (a.segment? position).bind Segment.origin

/-- The source places of the first `length` columns of a generated line. -/
def lineOrigins (a : Atlas) (line length : UInt32) : List (Option Place) :=
  (List.range length.toNat).map fun column => a.reverse? ⟨line, UInt32.ofNat column⟩

def source? (a : Atlas) (id : UInt32) : Option String := a.sources[id.toNat]?

/-- The recorded text of a source. -/
def content? (a : Atlas) (id : UInt32) : Option String := (a.contents[id.toNat]?).join

def name? (a : Atlas) (id : UInt32) : Option String := a.names[id.toNat]?

end Atlas

end Provenance

import Provenance.Atlas.Resolution
import Provenance.LineLayout
import Provenance.Run

/-!
# Focus

The focus follows a cursor in a source text. Its highlight is the generated line that the
cursor leads to, together with the runs of source columns that this whole line comes from.
Every change of the cursor, the atlas, the generated text or the name of the source derives
the highlight anew.
-/

namespace Provenance

/-- A generated line and the runs of source columns that it comes from. -/
structure Highlight where
  line : UInt32
  runs : List Run
  deriving DecidableEq, Repr

/-- The extent of a highlight, if there is one that is not empty. -/
def Highlight.envelope (h : Option Highlight) : Option Envelope :=
  h.bind fun h => Envelope.ofRuns h.runs

/-- The cursor and what it is looked up in. The layout is that of the generated text. -/
structure Focus where
  atlas : Option Atlas
  layout : LineLayout
  sourceName : String
  cursor : Option Position
  highlight : Option Highlight
  deriving DecidableEq, Repr

namespace Focus

/-- A focus without atlas and cursor. -/
def ofName (sourceName : String) : Focus := ⟨none, .empty, sourceName, none, none⟩

/-- The highlight for a cursor, unless it leads nowhere. -/
def highlightAt? (atlas : Atlas) (layout : LineLayout) (sourceName : String)
    (cursor : Position) : Option Highlight := do
  let source ← atlas.resolve? sourceName
  let generated ← atlas.forward? source cursor
  let length := (layout.lineLength? generated.line).getD 0
  return ⟨generated.line, Run.coalesce (atlas.lineOrigins generated.line length)⟩

/-- Derive the highlight from the other fields. -/
def refresh (f : Focus) : Focus :=
  { f with
    highlight := do
      let atlas ← f.atlas
      let cursor ← f.cursor
      highlightAt? atlas f.layout f.sourceName cursor }

def moveTo (f : Focus) (cursor : Position) : Focus := { f with cursor := some cursor }.refresh

/-- Install the atlas and the generated text of a compilation. -/
def install (f : Focus) (atlas : Option Atlas) (generated : String) : Focus :=
  { f with atlas := atlas, layout := .ofText generated }.refresh

/-- Forget the atlas, which no longer describes the source text. -/
def dropAtlas (f : Focus) : Focus := { f with atlas := none, highlight := none }

def rename (f : Focus) (sourceName : String) : Focus :=
  { f with sourceName := sourceName }.refresh

end Focus

end Provenance

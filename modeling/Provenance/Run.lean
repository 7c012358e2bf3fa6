import Provenance.Position

/-!
# Runs of columns

A run covers neighbouring columns of one line. `Run.coalesce` merges the source places of
successive generated columns into runs: a run grows only while each place lies on its line
exactly at its end. A miss, another line, or any jump closes it.
-/

namespace Provenance

/-- Columns from `first` up to but excluding `stop` on one line. -/
structure Run where
  line : UInt32
  first : UInt32
  stop : UInt32
  deriving DecidableEq, Repr, Inhabited

namespace Run

/-- The greatest column that can be written. -/
def lastColumn : UInt32 := 4294967295

/-- The run of one column. It is empty at the last column, whose end cannot be written. -/
def single (line column : UInt32) : Run :=
  ⟨line, column, if column = lastColumn then lastColumn else column + 1⟩

def width (r : Run) : UInt32 := r.stop - r.first

def covers (r : Run) (p : Position) : Bool :=
  p.line = r.line ∧ r.first ≤ p.column ∧ p.column < r.stop

def firstPosition (r : Run) : Position := ⟨r.line, r.first⟩

def stopPosition (r : Run) : Position := ⟨r.line, r.stop⟩

/-- The run with one more column, if the place lies exactly at its end. -/
def extend? (r : Run) (p : Place) : Option Run :=
  if r.line = p.line ∧ r.stop = p.column ∧ p.column ≠ lastColumn then
    some { r with stop := p.column + 1 }
  else
    none

/-- Merge places into runs, where `current` is the run that may still grow. -/
def coalesceFrom : Option Run → List (Option Place) → List Run
  | current, [] => current.toList
  | current, none :: ps => current.toList ++ coalesceFrom none ps
  | current, some p :: ps =>
    match current.bind (·.extend? p) with
    | some longer => coalesceFrom (some longer) ps
    | none => current.toList ++ coalesceFrom (some (single p.line p.column)) ps

/-- Merge the places of successive columns into runs. -/
def coalesce (places : List (Option Place)) : List Run := coalesceFrom none places

end Run

/-- The least extent that contains a set of runs. It decides between the presentation on one
line and on several; the runs themselves say what is highlighted. -/
structure Envelope where
  first : Position
  last : Position
  deriving DecidableEq, Repr

namespace Envelope

/-- The envelope of some runs, unless there are none. -/
def ofRuns (runs : List Run) : Option Envelope := do
  let first ← (runs.map Run.firstPosition).min?
  let last ← (runs.map Run.stopPosition).max?
  return ⟨first, last⟩

/-- The envelope reaches over several lines. -/
def multiLine (e : Envelope) : Bool := e.first.line != e.last.line

end Envelope

end Provenance

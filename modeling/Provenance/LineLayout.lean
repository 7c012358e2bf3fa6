import Provenance.Position
import Provenance.Search
import Provenance.Text.Bytes
import Provenance.Text.Lines
import Provenance.Text.Utf16

/-!
# Line layout

The layout of a text records where its newlines are and how long its lines are. It answers
for many offsets without reading the text again from its beginning: the line of an offset is
found by binary search among the newlines, and only that line is measured.
-/

namespace Provenance

open Provenance.Text

/-- Where the lines of a text break, how long they are in UTF-16 units, and its size in bytes. -/
structure LineLayout where
  breaks : Array Nat
  lengths : Array UInt32
  size : Nat
  deriving DecidableEq, Repr

namespace LineLayout

/-- The layout held before any text is known: a single line of unknown length. -/
def empty : LineLayout := ⟨#[], #[], 0⟩

/-- Byte offsets of the newlines of a text that begins at `offset`. -/
def newlines (offset : Nat) : List Char → List Nat
  | [] => []
  | c :: cs =>
    if c = '\n' then offset :: newlines (offset + c.utf8Size) cs
    else newlines (offset + c.utf8Size) cs

def ofText (text : String) : LineLayout where
  breaks := (newlines 0 text.toList).toArray
  lengths := ((lines text.toList).map fun l => UInt32.ofNat (units l)).toArray
  size := byteLength text.toList

/-- Number of lines; a text that ends in a newline has an empty last line. -/
def lineCount (layout : LineLayout) : Nat := layout.breaks.size + 1

/-- Length of a line in UTF-16 units, if there is such a line. -/
def lineLength? (layout : LineLayout) (line : UInt32) : Option UInt32 :=
  if line = 0 then none else layout.lengths[line.toNat - 1]?

/-- Number of newlines before an offset; a newline belongs to the line that it ends. -/
def row (layout : LineLayout) (offset : Nat) : Nat :=
  partitionPoint (fun b => decide (b < offset)) layout.breaks

/-- Byte offset at which a row begins. -/
def rowStart (layout : LineLayout) (row : Nat) : Nat :=
  match row with
  | 0 => 0
  | r + 1 => (layout.breaks[r]?).elim 0 (· + 1)

/-- The position of an offset in `text`, which should be the text that was laid out. -/
def position? (layout : LineLayout) (offset : Nat) (text : String) : Option Position :=
  if layout.size < offset then none
  else
    let row := layout.row offset
    (slice? text.toList (layout.rowStart row) offset).map fun line =>
      ⟨UInt32.ofNat (row + 1), UInt32.ofNat (units line)⟩

end LineLayout

end Provenance

import Provenance.Position
import Provenance.Text.Bytes
import Provenance.Text.Utf16

/-!
# Positions and byte offsets

Byte offsets of a text and its positions describe the same cuts. `Position.ofOffset?` reads
the text before the cut; `Position.toOffset?` walks to the line and then along its columns,
and refuses a column past the end of the line or between the two units of one character.
-/

namespace Provenance.Position

open Provenance.Text

def start : Position := ⟨1, 0⟩

/-- Where reading one more character leads: a newline opens the next line. -/
def step (p : Position) (c : Char) : Position :=
  if c = '\n' then ⟨p.line + 1, 0⟩ else ⟨p.line, p.column + UInt32.ofNat (charUnits c)⟩

/-- The position reached after reading a text from its beginning. -/
def after (cs : List Char) : Position := cs.foldl step start

@[simp]
theorem after_nil : after [] = start := rfl

@[simp]
theorem after_concat (cs : List Char) (c : Char) : after (cs ++ [c]) = step (after cs) c := by
  simp [after]

/-- The position at a byte offset, unless the offset is out of bounds or inside a character. -/
def ofOffset? (text : String) (offset : Nat) : Option Position :=
  (takeBytes? text.toList offset).map after

/-- Byte offset at which a line begins, counting lines from 0, with the text from there on. -/
def lineStart? : List Char → Nat → Option (Nat × List Char)
  | cs, 0 => some (0, cs)
  | [], _ + 1 => none
  | c :: cs, line + 1 =>
    (lineStart? cs (if c = '\n' then line else line + 1)).map fun (offset, rest) =>
      (offset + c.utf8Size, rest)

/-- Byte offset of a column on the line that the text begins with. -/
def columnOffset? : List Char → Nat → Option Nat
  | _, 0 => some 0
  | [], _ + 1 => none
  | c :: cs, column + 1 =>
    if c ≠ '\n' ∧ charUnits c ≤ column + 1 then
      (columnOffset? cs (column + 1 - charUnits c)).map (· + c.utf8Size)
    else
      none

/-- The byte offset of a position, unless it lies outside the text or inside a character. -/
def toOffset? (text : String) (p : Position) : Option Nat := do
  if p.line = 0 then none
  else
    let (offset, rest) ← lineStart? text.toList (p.line.toNat - 1)
    let columns ← columnOffset? rest p.column.toNat
    return offset + columns

end Provenance.Position

import Provenance.Position
import Provenance.Text.Blank
import Provenance.Text.Decimal

/-!
# Reading a cursor position

A cursor position is written `LINE:COLUMN`. Both parts are decimal numbers of 32 bits that
may stand between blanks, and lines start at 1. The text is split at its first colon.
-/

namespace Provenance

open Provenance.Text

/-- Why a text is no cursor position. The parts are kept as they were written. -/
inductive CursorError
  | missingColon (text : String)
  | badLine (part : String) (cause : DecimalError)
  | badColumn (part : String) (cause : DecimalError)
  | lineZero
  deriving DecidableEq, Repr

/-- What is shown to the user. -/
def CursorError.message : CursorError → String
  | .missingColon text => "expected LINE:COLUMN, got '" ++ text ++ "'"
  | .badLine part cause => "invalid line '" ++ part ++ "': " ++ cause.message
  | .badColumn part cause => "invalid column '" ++ part ++ "': " ++ cause.message
  | .lineZero => "lines are 1-based"

namespace Position

/-- Read a number of 32 bits that may stand between blanks. -/
def readPart (cs : List Char) : Except DecimalError UInt32 :=
  (readDecimal 4294967295 (trim cs)).map UInt32.ofNat

/-- Read a position from the characters before and after the colon. -/
def ofParts (line column : List Char) : Except CursorError Position := do
  let l ← (readPart line).mapError (CursorError.badLine (String.ofList line))
  let c ← (readPart column).mapError (CursorError.badColumn (String.ofList column))
  if l = 0 then .error .lineZero else .ok ⟨l, c⟩

/-- Read a cursor position `LINE:COLUMN`. -/
def read (text : String) : Except CursorError Position :=
  match text.toList.span (· ≠ ':') with
  | (line, ':' :: column) => ofParts line column
  | _ => .error (.missingColon text)

end Position

end Provenance

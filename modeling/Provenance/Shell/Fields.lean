import Provenance.Shell.Pattern

/-!
# Fields

The pieces of a word are expanded to segments, and segments are put together to fields. The
value of a parameter outside quotes is cut at separators: blanks among them count as one, and
any other separator ends a field of its own.
-/

namespace Provenance.Shell

/-- A part of an expanded word. -/
inductive Segment
  | fixed (inQuotes : Bool) (text : Octets)
  /-- Text that is cut at separators. -/
  | loose (text : Octets)
  /-- Values each of which begins a field of its own, except that the first goes on with what
  stands before it. -/
  | separate (values : List Octets)
  /-- The word is there, even if it is empty. -/
  | mark

/-- Fields under construction: those that are complete and the last one, all in reverse. -/
structure Fields where
  done : List (List Pattern.Marked)
  last : Option (List Pattern.Marked)

namespace Fields

def none : Fields := ⟨[], .none⟩

/-- Put text at the end of the last field. -/
def add (f : Fields) (inQuotes : Bool) (text : Octets) : Fields :=
  ⟨f.done, some ((text.map (·, inQuotes)).reverse ++ f.last.getD [])⟩

def close (f : Fields) : Fields := ⟨f.last.toList ++ f.done, .none⟩

/-- End the last field, which is empty if nothing has begun it. -/
def closeAnyway (f : Fields) : Fields := ⟨f.last.getD [] :: f.done, .none⟩

def isBlank (c : Char) : Bool := c = ' ' || c = '\t' || c = '\n' || c = '\x00'

/-- What is left of a text behind a separator and the blanks around it, which may hold one
separator that is no blank if the first was one. -/
def skipSeparators (separators : Octets) : (afterBlank : Bool) → Octets → Octets
  | _, [] => []
  | afterBlank, c :: cs =>
    if !separators.contains c ∧ c ≠ '\x00' then c :: cs
    else if isBlank c then skipSeparators separators afterBlank cs
    else if afterBlank then skipSeparators separators false cs
    else c :: cs

/-- Put text at the end that is cut at separators; `fuel` bounds its length. -/
def addLoose (separators : Octets) : Nat → Fields → Octets → Fields
  | 0, f, _ => f
  | _ + 1, f, [] => f
  | fuel + 1, f, c :: cs =>
    if separators.contains c ∨ c = '\x00' then
      if f.last.isNone ∧ isBlank c then addLoose separators fuel f cs
      else addLoose separators fuel f.closeAnyway (skipSeparators separators (isBlank c) cs)
    else addLoose separators fuel (f.add false [c]) cs

/-- Put a segment at the end. -/
def addSegment (separators : Octets) (f : Fields) : Segment → Fields
  | .fixed _ [] => f
  | .fixed q text => f.add q text
  | .loose text => addLoose separators (text.length + 1) f text
  | .mark => f.add true []
  | .separate [] => f
  | .separate (v :: vs) => vs.foldl (fun f v => f.close.add true v) (f.add true v)

def ofSegments (separators : Octets) (segments : List Segment) : List (List Pattern.Marked) :=
  ((segments.foldl (addSegment separators) none).close.done.map List.reverse).reverse

/-! ## Fields of a line -/

/-- A line that is being cut into a given number of fields; `size` is the length of the field that
is being read, which is in reverse. The last field takes the rest, of
which blanks at the end are left out, and so is a separator if the rest is one field. -/
structure Cut where
  done : List Octets
  current : Octets
  size : Nat
  /-- Where the last field ends, unless more of it follows. -/
  stop : Option Nat
  /-- Number of fields that may still be ended, plus one. -/
  left : Nat
  /-- The character before was a separating blank. -/
  afterBlank : Bool

/-- Take one more character, which may have stood behind a backslash. -/
def Cut.step (separators : Octets) (k : Cut) : Pattern.Marked → Cut
  | (c, true) => { k with current := c :: k.current, size := k.size + 1, afterBlank := false }
  | (c, false) =>
    let isSeparator := separators.contains c
    let isBlank := isSeparator && isBlank c
    let kept : Cut := { k with current := c :: k.current, size := k.size + 1 }
    if k.left = 0 then
      if isBlank then { kept with stop := k.stop.or (some k.size) }
      else
        { kept with
          stop := if isSeparator && k.afterBlank then k.stop else Option.none
          afterBlank := false }
    else if k.afterBlank then
      if isBlank then k
      else if isSeparator then { k with afterBlank := false }
      else { kept with afterBlank := false }
    else if isSeparator then
      if k.current.isEmpty && isBlank then k
      else if k.left = 1 then
        { kept with stop := some k.size, left := 0, afterBlank := isBlank }
      else
        { k with
          done := k.current.reverse :: k.done
          current := []
          size := 0
          left := k.left - 1
          afterBlank := isBlank }
    else kept

/-- Cut a line into at most so many fields. -/
def cutLine (separators : Octets) (count : Nat) (line : List Pattern.Marked) : List Octets :=
  let k := line.foldl (Cut.step separators) ⟨[], [], 0, Option.none, count, false⟩
  let last := k.stop.elim k.current.reverse k.current.reverse.take
  (if last.isEmpty then k.done else last :: k.done).reverse

end Fields

namespace Segment

/-- The characters of segments that are not split, where values are joined by blanks. -/
def marked (segments : List Segment) : List Pattern.Marked :=
  segments.flatMap fun
    | .fixed q text => text.map (·, q)
    | .loose text => text.map (·, false)
    | .separate values => (Octets.joined [' '] values).map (·, true)
    | .mark => []

/-- The text of segments that are not split. -/
def text (segments : List Segment) : Octets := (marked segments).map Prod.fst

end Segment

end Provenance.Shell

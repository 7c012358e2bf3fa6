/-!
# Positions

A position names a line, counted from 1, and a column on it, counted in UTF-16 units from 0.
A place is a position in one of several source texts. Positions are ordered by line and
then column, places by source first.
-/

namespace Provenance

structure Position where
  line : UInt32
  column : UInt32
  deriving DecidableEq, Repr, Inhabited

/-- A position in one of the source texts, which are numbered from 0. -/
structure Place where
  source : UInt32
  position : Position
  deriving DecidableEq, Repr, Inhabited

namespace Position

instance : LE Position where
  le a b := a.line < b.line ∨ (a.line = b.line ∧ a.column ≤ b.column)

instance : LT Position where
  lt a b := a.line < b.line ∨ (a.line = b.line ∧ a.column < b.column)

instance (a b : Position) : Decidable (a ≤ b) :=
  inferInstanceAs (Decidable (a.line < b.line ∨ (a.line = b.line ∧ a.column ≤ b.column)))

instance (a b : Position) : Decidable (a < b) :=
  inferInstanceAs (Decidable (a.line < b.line ∨ (a.line = b.line ∧ a.column < b.column)))

instance : Min Position := minOfLe

instance : Max Position := maxOfLe

theorem le_def {a b : Position} :
    a ≤ b ↔ a.line < b.line ∨ (a.line = b.line ∧ a.column ≤ b.column) := Iff.rfl

theorem lt_def {a b : Position} :
    a < b ↔ a.line < b.line ∨ (a.line = b.line ∧ a.column < b.column) := Iff.rfl

end Position

namespace Place

instance : LE Place where
  le a b := a.source < b.source ∨ (a.source = b.source ∧ a.position ≤ b.position)

instance : LT Place where
  lt a b := a.source < b.source ∨ (a.source = b.source ∧ a.position < b.position)

instance (a b : Place) : Decidable (a ≤ b) :=
  inferInstanceAs (Decidable (a.source < b.source ∨
    (a.source = b.source ∧ a.position ≤ b.position)))

instance (a b : Place) : Decidable (a < b) :=
  inferInstanceAs (Decidable (a.source < b.source ∨
    (a.source = b.source ∧ a.position < b.position)))

theorem le_def {a b : Place} :
    a ≤ b ↔ a.source < b.source ∨ (a.source = b.source ∧ a.position ≤ b.position) := Iff.rfl

theorem lt_def {a b : Place} :
    a < b ↔ a.source < b.source ∨ (a.source = b.source ∧ a.position < b.position) := Iff.rfl

/-- The line on which the place lies. -/
abbrev line (p : Place) : UInt32 := p.position.line

/-- The column at which the place lies. -/
abbrev column (p : Place) : UInt32 := p.position.column

end Place

end Provenance

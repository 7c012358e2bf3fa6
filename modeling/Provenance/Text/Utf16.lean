/-!
# UTF-16 lengths

Columns of a source map count UTF-16 code units. A character of the basic plane takes one
unit and every other character takes two, so the length of a text is a sum over its
characters and is additive under concatenation.
-/

namespace Provenance.Text

/-- Code units that a character takes: two beyond the basic plane, else one. -/
def charUnits (c : Char) : Nat :=
  if c.toNat < 0x10000 then 1 else 2

/-- Length of a text in UTF-16 code units. -/
def units : List Char → Nat
  | [] => 0
  | c :: cs => charUnits c + units cs

@[simp]
theorem units_nil : units [] = 0 := rfl

@[simp]
theorem units_cons (c : Char) (cs : List Char) : units (c :: cs) = charUnits c + units cs := rfl

@[simp]
theorem units_append (xs ys : List Char) : units (xs ++ ys) = units xs + units ys := by
  induction xs with
  | nil => simp
  | cons c cs ih => simp [ih, Nat.add_assoc]

theorem charUnits_newline : charUnits '\n' = 1 := rfl

theorem charUnits_pos (c : Char) : 0 < charUnits c := by
  unfold charUnits
  split <;> decide

theorem charUnits_le_two (c : Char) : charUnits c ≤ 2 := by
  unfold charUnits
  split <;> decide

/-- Only the empty text has no units. -/
theorem units_eq_zero_iff {cs : List Char} : units cs = 0 ↔ cs = [] := by
  cases cs with
  | nil => simp
  | cons c cs =>
    have hpos := charUnits_pos c
    simp only [units_cons, reduceCtorEq, iff_false]
    omega

end Provenance.Text

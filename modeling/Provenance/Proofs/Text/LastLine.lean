import Mathlib.Data.List.DropRight
import Provenance.Text.Bytes
import Provenance.Text.Utf16

/-!
# The last line of a text

A text falls into the part up to its last newline and the line that stands behind it. Together with
the number of newlines, the length of that line says where the text ends, and neither is longer than
the text is in bytes.
-/

namespace Provenance.Text

/-- What stands behind the last newline of a text, or all of it where there is none. -/
def lastLine (cs : List Char) : List Char := cs.rtakeWhile (· ≠ '\n')

variable {cs line : List Char} {c : Char}

@[simp] theorem lastLine_nil : lastLine [] = [] := List.rtakeWhile_nil _

@[simp] theorem lastLine_newline (cs : List Char) : lastLine (cs ++ ['\n']) = [] :=
  List.rtakeWhile_concat_neg _ _ _ (by simp)

theorem lastLine_concat (h : c ≠ '\n') (cs : List Char) :
    lastLine (cs ++ [c]) = lastLine cs ++ [c] :=
  List.rtakeWhile_concat_pos _ _ _ (by simpa using h)

theorem newline_notMem_lastLine (cs : List Char) : '\n' ∉ lastLine cs := by
  intro h
  simpa using List.mem_rtakeWhile_imp h

/-- Text without a newline is added to the last line. -/
theorem lastLine_append (h : '\n' ∉ line) (cs : List Char) :
    lastLine (cs ++ line) = lastLine cs ++ line := by
  induction line using List.reverseRecOn with
  | nil => simp
  | append_singleton line c ih =>
      rw [List.mem_append, List.mem_singleton, not_or] at h
      rw [← List.append_assoc, lastLine_concat (Ne.symm h.2), ih h.1, List.append_assoc]

/-- Text behind a newline has the last line that it has alone. -/
theorem lastLine_append_newline (before cs : List Char) :
    lastLine (before ++ '\n' :: cs) = lastLine cs := by
  induction cs using List.reverseRecOn with
  | nil => simp
  | append_singleton cs c ih =>
      rw [← List.cons_append, ← List.append_assoc]
      by_cases h : c = '\n'
      · rw [h, lastLine_newline, lastLine_newline]
      · rw [lastLine_concat h, lastLine_concat h, ih]

/-- Only the first line changes by a character in front. -/
theorem lastLine_cons_of_mem (h : '\n' ∈ cs) (c : Char) : lastLine (c :: cs) = lastLine cs := by
  obtain ⟨before, rest, rfl⟩ := List.append_of_mem h
  rw [← List.cons_append, lastLine_append_newline, lastLine_append_newline]

/-- Nothing stands behind the last newline of a text that is empty or ends in one. -/
theorem lastLine_eq_nil_iff : lastLine cs = [] ↔ cs = [] ∨ ∃ before, cs = before ++ ['\n'] := by
  constructor
  · intro h
    rcases List.eq_nil_or_concat cs with rfl | ⟨before, c, rfl⟩
    · exact Or.inl rfl
    · rw [List.concat_eq_append] at h ⊢
      by_cases hc : c = '\n'
      · exact Or.inr ⟨before, by rw [hc]⟩
      · simp [lastLine_concat hc] at h
  · rintro (rfl | ⟨before, rfl⟩)
    · exact lastLine_nil
    · exact lastLine_newline before

/-- A text is cut where its last line begins, behind all of its newlines. -/
theorem exists_append_lastLine (cs : List Char) :
    ∃ start, cs = start ++ lastLine cs ∧ lastLine start = [] ∧
      cs.count '\n' = start.count '\n' := by
  have hcs : cs.rdropWhile (· ≠ '\n') ++ lastLine cs = cs := List.rdropWhile_append_rtakeWhile
  refine ⟨cs.rdropWhile (· ≠ '\n'), hcs.symm, ?_, ?_⟩
  · rw [lastLine, List.rtakeWhile_eq_nil_iff]
    exact List.rdropWhile_last_not _ _
  · conv_lhs => rw [← hcs]
    rw [List.count_append, List.count_eq_zero.mpr (newline_notMem_lastLine cs), Nat.add_zero]

/-- No character has more units than bytes. -/
theorem charUnits_le_utf8Size (c : Char) : charUnits c ≤ c.utf8Size := by
  have hpos := c.utf8Size_pos
  simp only [charUnits]
  split
  next => omega
  next h =>
    have hne : c.utf8Size ≠ 1 := by
      rw [Ne, Char.utf8Size_eq_one_iff, UInt32.le_iff_toNat_le]
      intro hle
      exact h (Nat.lt_of_le_of_lt hle (by decide))
    omega

theorem units_le_byteLength (cs : List Char) : units cs ≤ byteLength cs := by
  induction cs with
  | nil => exact Nat.le_refl 0
  | cons c cs ih => exact Nat.add_le_add (charUnits_le_utf8Size c) ih

theorem length_le_byteLength (cs : List Char) : cs.length ≤ byteLength cs := by
  induction cs with
  | nil => exact Nat.le_refl 0
  | cons c cs ih =>
      have hpos := c.utf8Size_pos
      rw [List.length_cons, byteLength_cons]
      omega

theorem count_le_byteLength (c : Char) (cs : List Char) : cs.count c ≤ byteLength cs :=
  List.count_le_length.trans (length_le_byteLength cs)

/-- The last line has no more units than the text has bytes. -/
theorem units_lastLine_le (cs : List Char) : units (lastLine cs) ≤ byteLength cs := by
  obtain ⟨start, hcs, -⟩ := exists_append_lastLine cs
  have hlength : byteLength cs = byteLength start + byteLength (lastLine cs) := by
    rw [← byteLength_append, ← hcs]
  have hunits := units_le_byteLength (lastLine cs)
  omega

end Provenance.Text

import Provenance.LineLayout
import Provenance.Proofs.Position.Offsets

/-!
# Positions by line layout

A layout finds the position of an offset among the newlines it has recorded. Up to a cut of the
text these are the newlines of the part before the cut, so the row is their number and begins where
the last line of that part begins. The position is the one that reading the text up to the offset
leads to.

## Implementation notes

An offset inside a character or past the end has a row as well. It has no position because the slice
from the beginning of its row up to it would be a cut of the text at the offset.
-/

namespace Provenance.LineLayout

open Provenance.Text

variable {text : String} {cs before rest : List Char} {o : Nat}

theorem newlines_append (o : Nat) (cs rest : List Char) :
    newlines o (cs ++ rest) = newlines o cs ++ newlines (o + byteLength cs) rest := by
  induction cs generalizing o with
  | nil => rfl
  | cons c cs ih =>
      rw [List.cons_append, newlines, newlines, ih, byteLength_cons, Nat.add_assoc]
      split
      · rfl
      · rfl

/-- Every newline is recorded once. -/
theorem length_newlines (o : Nat) (cs : List Char) : (newlines o cs).length = cs.count '\n' := by
  induction cs generalizing o with
  | nil => rfl
  | cons c cs ih =>
      rw [newlines]
      by_cases h : c = '\n'
      · rw [if_pos h, List.length_cons, ih, h, List.count_cons_self]
      · rw [if_neg h, ih, List.count_cons_of_ne h]

/-- The newlines lie in the text. -/
theorem mem_newlines {b : Nat} (h : b ∈ newlines o cs) : o ≤ b ∧ b < o + byteLength cs := by
  induction cs generalizing o with
  | nil => cases h
  | cons c cs ih =>
      have hpos := c.utf8Size_pos
      rw [byteLength_cons]
      rw [newlines] at h
      split at h
      next =>
        rcases List.mem_cons.mp h with rfl | h
        · omega
        · have := ih h
          omega
      next =>
        have := ih h
        omega

/-- The row of a cut is the number of newlines before it. -/
theorem row_ofText (htext : text.toList = before ++ rest) :
    (ofText text).row (byteLength before) = before.count '\n' := by
  rw [row, ofText, htext, newlines_append, partitionPoint_append, length_newlines]
  · intro b hb
    have := mem_newlines hb
    exact decide_eq_true (by omega)
  · intro b hb
    have := mem_newlines hb
    exact decide_eq_false (by omega)

/-- A row begins where the last line of the text before it begins. -/
theorem rowStart_ofText (htext : text.toList = before ++ rest) (hopens : lastLine before = []) :
    (ofText text).rowStart (before.count '\n') = byteLength before := by
  rcases lastLine_eq_nil_iff.mp hopens with rfl | ⟨lead, rfl⟩
  · rfl
  · have hbreaks : (ofText text).breaks[lead.count '\n']? = some (byteLength lead) := by
      rw [ofText, htext, List.append_assoc, newlines_append, Nat.zero_add, ← length_newlines 0 lead]
      simp [newlines]
    rw [List.count_append, List.count_singleton_self, rowStart, hbreaks, byteLength_append]
    rfl

/-- The layout of a text gives an offset the position that reading the text up to it leads to, and
none where the text cannot be cut. -/
theorem position?_ofText (text : String) (o : Nat) :
    (ofText text).position? o text = Position.ofOffset? text o := by
  cases htake : takeBytes? text.toList o with
  | none =>
      have hslice : slice? text.toList ((ofText text).rowStart ((ofText text).row o)) o = none := by
        apply Option.eq_none_iff_forall_ne_some.mpr
        intro part hpart
        obtain ⟨before, rest, htext, -, hlength⟩ := slice?_eq_some_iff.mp hpart
        have hcut : takeBytes? text.toList o = some (before ++ part) :=
          takeBytes?_eq_some_iff.mpr ⟨hlength, rest, by rw [htext, List.append_assoc]⟩
        cases htake.symm.trans hcut
      simp only [Position.ofOffset?, htake, position?, hslice, Option.map_none, ite_self]
  | some before =>
      obtain ⟨rfl, rest, htext⟩ := takeBytes?_eq_some_iff.mp htake
      obtain ⟨start, hbefore, hopens, hcount⟩ := exists_append_lastLine before
      have htext' : text.toList = start ++ (lastLine before ++ rest) := by
        rw [htext, ← List.append_assoc, ← hbefore]
      have hsize : ¬ (ofText text).size < byteLength before := by
        change ¬ byteLength text.toList < byteLength before
        rw [htext, byteLength_append]
        omega
      have hslice : slice? text.toList (byteLength start) (byteLength before) =
          some (lastLine before) :=
        slice?_eq_some_iff.mpr ⟨start, rest, htext', rfl, by rw [← hbefore]⟩
      have hstart : (ofText text).rowStart (before.count '\n') = byteLength start := by
        rw [hcount, rowStart_ofText htext' hopens]
      simp only [Position.ofOffset?, htake, position?, if_neg hsize, row_ofText htext, hstart, hslice,
        Option.map_some, Position.after_eq]

end Provenance.LineLayout

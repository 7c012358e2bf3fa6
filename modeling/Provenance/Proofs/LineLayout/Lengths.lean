import Mathlib.Algebra.GroupWithZero.Nat
import Provenance.Proofs.LineLayout.Lookup

/-!
# Columns and line lengths

The lengths that a layout records bound the columns of a text. A position has an offset exactly if
its line is one of the text, its column is not beyond the length of that line, and it is not between
the two units of a character. At the full length of a line stands its newline or the end of the
text, so all lengths together leave out just the newlines.
-/

namespace Provenance

open Provenance.Text

namespace Text

/-- A column lies between the two units of a character of the line. -/
def InsideCharacter (line : List Char) (column : Nat) : Prop :=
  ∃ before c rest, line = before ++ c :: rest ∧ charUnits c = 2 ∧ column = units before + 1

variable {cs line : List Char} {n column : Nat}

/-- The first line of a text reaches to its first newline. -/
theorem exists_lines_eq_cons (cs : List Char) :
    ∃ rest, lines cs = cs.takeWhile (· ≠ '\n') :: rest := by
  induction cs with
  | nil => exact ⟨[], rfl⟩
  | cons c cs ih =>
      by_cases h : c = '\n'
      · exact ⟨lines cs, by simp [h]⟩
      · obtain ⟨rest, hlines⟩ := ih
        exact ⟨rest, by simp [lines_cons h, hlines, consFirst, h]⟩

/-- A line reaches from where it begins to the next newline. -/
theorem getElem?_lines (cs : List Char) (n : Nat) :
    (lines cs)[n]? = (Position.lineStart? cs n).map fun s => s.2.takeWhile (· ≠ '\n') := by
  fun_induction Position.lineStart? cs n with
  | case1 cs =>
      obtain ⟨rest, hlines⟩ := exists_lines_eq_cons cs
      rw [hlines]
      rfl
  | case2 n => rfl
  | case3 c cs n ih =>
      rw [Option.map_map]
      by_cases h : c = '\n'
      · rw [if_pos h] at ih ⊢
        rw [h, lines_newline, List.getElem?_cons_succ]
        exact ih
      · rw [if_neg h] at ih ⊢
        obtain ⟨rest, hlines⟩ := exists_lines_eq_cons cs
        rw [hlines] at ih
        rw [lines_cons h, hlines]
        exact ih

/-- A line of a text has newlines or the ends of the text around it. -/
theorem exists_of_getElem?_lines (h : (lines cs)[n]? = some line) :
    ∃ start tail, cs = start ++ (line ++ tail) ∧ start.count '\n' = n ∧ lastLine start = [] ∧
      '\n' ∉ line ∧ (tail = [] ∨ ∃ rest, tail = '\n' :: rest) := by
  rw [getElem?_lines] at h
  obtain ⟨⟨o, behind⟩, hstart, rfl⟩ := Option.map_eq_some_iff.mp h
  obtain ⟨start, rfl, -, hcount, hopens⟩ := Position.lineStart?_eq_some_iff.mp hstart
  refine ⟨start, behind.dropWhile (· ≠ '\n'), ?_, hcount, hopens, ?_, ?_⟩
  · rw [List.takeWhile_append_dropWhile]
  · intro hmem
    simpa using List.mem_takeWhile_imp hmem
  · cases htail : behind.dropWhile (· ≠ '\n') with
    | nil => exact Or.inl rfl
    | cons c rest =>
        have hc := List.head_dropWhile_not (· ≠ '\n') (w := by rw [htail]; simp)
        simp only [htail, List.head_cons] at hc
        right
        exact ⟨rest, by simpa using hc⟩

/-- The line on which a cut lies reaches over the cut to the next newline. -/
theorem getElem?_lines_append (before rest : List Char) :
    (lines (before ++ rest))[before.count '\n']? =
      some (lastLine before ++ rest.takeWhile (· ≠ '\n')) := by
  obtain ⟨start, hbefore, hopens, hcount⟩ := exists_append_lastLine before
  have hstart : Position.lineStart? (before ++ rest) (before.count '\n') =
      some (byteLength start, lastLine before ++ rest) := by
    refine Position.lineStart?_eq_some_iff.mpr ⟨start, ?_, rfl, hcount.symm, hopens⟩
    rw [← List.append_assoc, ← hbefore]
  have hline : ∀ c ∈ lastLine before, decide (c ≠ '\n') = true := by
    intro c hc
    exact decide_eq_true fun h => newline_notMem_lastLine before (h ▸ hc)
  rw [getElem?_lines, hstart, Option.map_some, List.takeWhile_append_of_pos hline]

/-- The units of all lines are those of the text but for its newlines. -/
theorem sum_units_lines (cs : List Char) :
    ((lines cs).map units).sum + cs.count '\n' = units cs := by
  induction cs with
  | nil => rfl
  | cons c cs ih =>
      by_cases h : c = '\n'
      · rw [h, lines_newline, List.count_cons_self, units_cons, charUnits_newline, ← ih]
        simp only [List.map_cons, List.sum_cons, units_nil]
        omega
      · obtain ⟨rest, hlines⟩ := exists_lines_eq_cons cs
        rw [hlines] at ih
        rw [lines_cons h, hlines, List.count_cons_of_ne h, units_cons, ← ih]
        simp only [consFirst, List.map_cons, List.sum_cons, units_cons]
        omega

/-- No part of a line ends inside a character. -/
theorem not_insideCharacter_units (part rest : List Char) :
    ¬ InsideCharacter (part ++ rest) (units part) := by
  rintro ⟨before, c, rest', hline, hc, hunits⟩
  rcases List.append_eq_append_iff.mp hline with ⟨more, rfl, -⟩ | ⟨more, rfl, hmore⟩
  · rw [units_append] at hunits
    omega
  · cases more with
    | nil => simp at hunits
    | cons d more =>
        obtain ⟨rfl, -⟩ := List.cons.inj hmore
        rw [units_append, units_cons] at hunits
        omega

/-- Every other column up to the length of a line is that of a part of it. -/
theorem exists_units_eq (hle : column ≤ units line) (hcolumn : ¬ InsideCharacter line column) :
    ∃ part rest, line = part ++ rest ∧ units part = column := by
  induction line generalizing column with
  | nil => exact ⟨[], [], rfl, (Nat.le_zero.mp hle).symm⟩
  | cons c line ih =>
      rw [units_cons] at hle
      rcases Nat.eq_zero_or_pos column with rfl | hpos
      · exact ⟨[], c :: line, rfl, rfl⟩
      have hfits : charUnits c ≤ column := by
        by_contra hlt
        have htwo := charUnits_le_two c
        exact hcolumn ⟨[], c, line, rfl, by omega, by rw [units_nil]; omega⟩
      have hrest : ¬ InsideCharacter line (column - charUnits c) := by
        rintro ⟨before, d, rest, rfl, hd, hunits⟩
        exact hcolumn ⟨c :: before, d, rest, rfl, hd, by rw [units_cons]; omega⟩
      obtain ⟨part, rest, rfl, hunits⟩ := ih (by omega) hrest
      exact ⟨c :: part, rest, rfl, by rw [units_cons]; omega⟩

end Text

namespace LineLayout

variable {text : String} {line : List Char} {l n : UInt32}

theorem lineCount_ofText (text : String) :
    (ofText text).lineCount = (lines text.toList).length := by
  rw [length_lines, ← length_newlines 0]
  rfl

/-- The length of a line is recorded in its units. -/
theorem lineLength?_eq_some_iff : (ofText text).lineLength? l = some n ↔ 1 ≤ l.toNat ∧
    ∃ line, (lines text.toList)[l.toNat - 1]? = some line ∧ UInt32.ofNat (units line) = n := by
  rw [lineLength?]
  split
  next h => exact iff_of_false nofun fun hn => absurd hn.1 (by simp [h])
  next h =>
    have hpos : 1 ≤ l.toNat := UInt32.lt_iff_toNat_lt.mp (UInt32.pos_iff_ne_zero.mpr h)
    simp [ofText, hpos]

/-- A layout has a length for each line. -/
theorem isSome_lineLength?_iff : ((ofText text).lineLength? l).isSome = true ↔
    1 ≤ l.toNat ∧ l.toNat ≤ (ofText text).lineCount := by
  rw [Option.isSome_iff_exists, lineCount_ofText]
  simp only [lineLength?_eq_some_iff]
  constructor
  · rintro ⟨n, hpos, line, hline, -⟩
    obtain ⟨hlt, -⟩ := List.getElem?_eq_some_iff.mp hline
    omega
  · rintro ⟨hpos, hle⟩
    exact ⟨_, hpos, _, List.getElem?_eq_getElem (by omega), rfl⟩

/-- In a text whose columns can be counted no length is cut short. -/
theorem toNat_units (h : text.utf8ByteSize < 2 ^ 32 - 1) {i : Nat}
    (hline : (lines text.toList)[i]? = some line) :
    (UInt32.ofNat (units line)).toNat = units line := by
  obtain ⟨start, tail, htext, -⟩ := exists_of_getElem?_lines hline
  have hsize : UInt32.size = 2 ^ 32 := rfl
  have hunits := units_le_byteLength line
  rw [← byteLength_toList, htext, byteLength_append, byteLength_append] at h
  exact UInt32.toNat_ofNat_of_lt' (by omega)

/-- A part of a line ends at the position that its units tell. -/
theorem endsAt_part {start part : List Char} {p : Position} (hpos : 1 ≤ p.line.toNat)
    (hcount : start.count '\n' = p.line.toNat - 1) (hopens : lastLine start = [])
    (hpart : '\n' ∉ part) (hcolumn : units part = p.column.toNat) :
    Position.EndsAt (start ++ part) p where
  line := by
    rw [List.count_append, List.count_eq_zero.mpr hpart]
    omega
  column := by rw [lastLine_append hpart, hopens, List.nil_append, hcolumn]

/-- A position in the text is one on a line of it, up to the length of the line and not inside a
character. -/
theorem isSome_toOffset?_iff (h : text.utf8ByteSize < 2 ^ 32 - 1) {p : Position} :
    (p.toOffset? text).isSome = true ↔ ∃ n line, (ofText text).lineLength? p.line = some n ∧
      (lines text.toList)[p.line.toNat - 1]? = some line ∧ p.column ≤ n ∧
      ¬ InsideCharacter line p.column.toNat := by
  rw [Option.isSome_iff_exists]
  constructor
  · rintro ⟨o, ho⟩
    obtain ⟨before, rest, htext, -, hends⟩ := Position.exists_endsAt_of_toOffset? ho
    have hrow : p.line.toNat - 1 = before.count '\n' := by
      rw [hends.line, Nat.add_sub_cancel]
    have hline : (lines text.toList)[p.line.toNat - 1]? =
        some (lastLine before ++ rest.takeWhile (· ≠ '\n')) := by
      rw [hrow, htext, getElem?_lines_append]
    refine ⟨_, _, lineLength?_eq_some_iff.mpr ⟨?_, _, hline, rfl⟩, hline, ?_, ?_⟩
    · rw [hends.line]
      exact Nat.le_add_left 1 _
    · rw [UInt32.le_iff_toNat_le, toNat_units h hline, hends.column, units_append]
      exact Nat.le_add_right _ _
    · rw [hends.column]
      exact not_insideCharacter_units _ _
  · rintro ⟨n, line, hlength, hline, hle, hcolumn⟩
    obtain ⟨hpos, line', hline', rfl⟩ := lineLength?_eq_some_iff.mp hlength
    obtain rfl := Option.some.inj (hline'.symm.trans hline)
    rw [UInt32.le_iff_toNat_le, toNat_units h hline] at hle
    obtain ⟨part, rest, rfl, hunits⟩ := exists_units_eq hle hcolumn
    obtain ⟨start, tail, htext, hcount, hopens, hnone, -⟩ := exists_of_getElem?_lines hline
    have hpart : '\n' ∉ part := fun hmem => hnone (List.mem_append_left rest hmem)
    have htext' : text.toList = (start ++ part) ++ (rest ++ tail) := by
      rw [htext, List.append_assoc, List.append_assoc]
    exact ⟨_, Position.toOffset?_of_endsAt htext' (endsAt_part hpos hcount hopens hpart hunits)⟩

/-- At the length of a line its newline stands, or the text ends. -/
theorem toOffset?_lineLength (h : text.utf8ByteSize < 2 ^ 32 - 1)
    (hlength : (ofText text).lineLength? l = some n) :
    (l.toNat < (ofText text).lineCount → ∃ before rest, text.toList = before ++ '\n' :: rest ∧
      before.count '\n' + 1 = l.toNat ∧
      Position.toOffset? text ⟨l, n⟩ = some (byteLength before)) ∧
    (l.toNat = (ofText text).lineCount →
      Position.toOffset? text ⟨l, n⟩ = some text.utf8ByteSize) := by
  obtain ⟨hpos, line, hline, rfl⟩ := lineLength?_eq_some_iff.mp hlength
  obtain ⟨start, tail, htext, hcount, hopens, hnone, htail⟩ := exists_of_getElem?_lines hline
  have hends : Position.EndsAt (start ++ line) ⟨l, UInt32.ofNat (units line)⟩ :=
    endsAt_part hpos hcount hopens hnone (toNat_units h hline).symm
  have htext' : text.toList = (start ++ line) ++ tail := by rw [htext, List.append_assoc]
  have hoffset : Position.toOffset? text ⟨l, UInt32.ofNat (units line)⟩ =
      some (byteLength (start ++ line)) :=
    Position.toOffset?_of_endsAt htext' hends
  have hlines : (ofText text).lineCount = l.toNat + tail.count '\n' := by
    rw [lineCount_ofText, length_lines, htext', List.count_append, hends.line]
    omega
  rw [hoffset, hlines]
  rcases htail with rfl | ⟨rest, rfl⟩
  · refine ⟨fun hlt => absurd hlt (Nat.lt_irrefl _), fun _ => ?_⟩
    rw [← byteLength_toList, htext', List.append_nil]
  · refine ⟨fun _ => ⟨start ++ line, rest, htext', hends.line.symm, rfl⟩, fun heq => ?_⟩
    rw [List.count_cons_self] at heq
    omega

/-- Lines can be counted, so that each is found by its number. -/
theorem lineLength?_ofNat (h : text.utf8ByteSize < 2 ^ 32 - 1) {i : Nat}
    (hline : (lines text.toList)[i]? = some line) :
    (ofText text).lineLength? (UInt32.ofNat (1 + i)) = some (UInt32.ofNat (units line)) := by
  have hnumber : (UInt32.ofNat (1 + i)).toNat = 1 + i := by
    obtain ⟨hi, -⟩ := List.getElem?_eq_some_iff.mp hline
    have hsize : UInt32.size = 2 ^ 32 := rfl
    have hcount := count_le_byteLength '\n' text.toList
    rw [length_lines] at hi
    rw [← byteLength_toList] at h
    exact UInt32.toNat_ofNat_of_lt' (by omega)
  refine lineLength?_eq_some_iff.mpr ⟨?_, line, ?_, rfl⟩
  · rw [hnumber]
    exact Nat.le_add_right 1 i
  · rw [hnumber, Nat.add_sub_cancel_left, hline]

/-- The lengths of all lines are the units of the text but for its newlines. -/
theorem sum_lineLength? (h : text.utf8ByteSize < 2 ^ 32 - 1) :
    ((List.range' 1 (ofText text).lineCount).map fun l =>
      (((ofText text).lineLength? (UInt32.ofNat l)).getD 0).toNat).sum +
        ((ofText text).lineCount - 1) = units text.toList := by
  have hlengths : ((List.range' 1 (ofText text).lineCount).map fun l =>
      (((ofText text).lineLength? (UInt32.ofNat l)).getD 0).toNat) =
        (lines text.toList).map units := by
    apply List.ext_getElem
    · simp [lineCount_ofText]
    · intro i hi hi'
      rw [List.length_map] at hi'
      have hline : (lines text.toList)[i]? = some (lines text.toList)[i] :=
        List.getElem?_eq_getElem hi'
      rw [List.getElem_map, List.getElem_map, List.getElem_range', Nat.one_mul,
        lineLength?_ofNat h hline, Option.getD_some, toNat_units h hline]
  rw [hlengths, lineCount_ofText, length_lines, Nat.add_sub_cancel, sum_units_lines]

/-- In a text whose lines and columns can be counted, the layout has a length for each line. A
position is in the text exactly if its line has a length, the column is not beyond it, and no
character reaches over the column. At that length the line ends, with a newline or with the text,
and all lengths together with the newlines make up the text. -/
theorem lines_bound_columns (h : text.utf8ByteSize < 2 ^ 32 - 1) :
    (∀ l, ((ofText text).lineLength? l).isSome = true ↔
      1 ≤ l.toNat ∧ l.toNat ≤ (ofText text).lineCount) ∧
    (∀ p : Position, (p.toOffset? text).isSome = true ↔
      ∃ n line, (ofText text).lineLength? p.line = some n ∧
        (lines text.toList)[p.line.toNat - 1]? = some line ∧ p.column ≤ n ∧
        ¬ InsideCharacter line p.column.toNat) ∧
    (∀ l n, (ofText text).lineLength? l = some n →
      (l.toNat < (ofText text).lineCount → ∃ before rest, text.toList = before ++ '\n' :: rest ∧
        before.count '\n' + 1 = l.toNat ∧
        Position.toOffset? text ⟨l, n⟩ = some (byteLength before)) ∧
      (l.toNat = (ofText text).lineCount →
        Position.toOffset? text ⟨l, n⟩ = some text.utf8ByteSize)) ∧
    ((List.range' 1 (ofText text).lineCount).map fun l =>
      (((ofText text).lineLength? (UInt32.ofNat l)).getD 0).toNat).sum +
        ((ofText text).lineCount - 1) = units text.toList :=
  ⟨fun _ => isSome_lineLength?_iff, fun _ => isSome_toOffset?_iff h,
    fun _ _ hlength => toOffset?_lineLength h hlength, sum_lineLength? h⟩

/-- The smiley of the first line reaches over its column 2. -/
theorem lines_bound_columns_mixed : Position.mixed.utf8ByteSize < 2 ^ 32 - 1 ∧
    (ofText Position.mixed).lineCount = 4 ∧ ((ofText Position.mixed).lineLength? 5).isSome = false ∧
    (Position.toOffset? Position.mixed ⟨1, 2⟩).isSome = false ∧
    Position.toOffset? Position.mixed ⟨4, 0⟩ = some 10 ∧ units Position.mixed.toList = 7 := by
  have hlength : Position.mixed.utf8ByteSize < 2 ^ 32 - 1 := by decide
  have hcount : (ofText Position.mixed).lineCount = 4 := by decide
  obtain ⟨hlines, hpositions, hends, hsum⟩ := lines_bound_columns hlength
  refine ⟨hlength, hcount, ?_, ?_, ?_, ?_⟩
  · rw [← Bool.not_eq_true, hlines, hcount]
    decide
  · rw [← Bool.not_eq_true, hpositions]
    rintro ⟨n, line, -, hline, -, hinside⟩
    obtain rfl : ['ü', '😀'] = line := Option.some.inj ((by decide : _ = _).symm.trans hline)
    exact hinside ⟨['ü'], '😀', [], rfl, by decide, by decide⟩
  · exact (hends 4 0 (by decide)).2 (by rw [hcount]; rfl)
  · rw [← hsum]
    decide

end LineLayout

end Provenance

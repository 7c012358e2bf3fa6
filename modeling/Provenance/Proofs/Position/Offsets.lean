import Provenance.Position.Offset
import Provenance.Proofs.Position.Order
import Provenance.Proofs.Text.LastLine

/-!
# Offsets and positions in step

The position of an offset and the offset of a position are found in opposite ways: one reads the
text up to the offset, the other looks for the line and then for the column. Both tell of the same
cut of the text, so in a text whose lines and columns can be counted they undo each other, and they
keep the order.

## Implementation notes

`EndsAt` says in natural numbers where a text ends, by its newlines and the units of its last line.
`after` counts the same modulo 2 ^ 32; that nothing is lost needs the bound on the bytes, since no
text has more newlines or units than bytes.
-/

namespace Provenance.Position

open Provenance.Text

variable {text : String} {cs rest : List Char} {p q : Position} {o : Nat}

/-- A text ends at the position if its newlines and the units of its last line say so. -/
structure EndsAt (cs : List Char) (p : Position) : Prop where
  line : p.line.toNat = cs.count '\n' + 1
  column : p.column.toNat = units (lastLine cs)

theorem EndsAt.unique (hp : EndsAt cs p) (hq : EndsAt cs q) : p = q := by
  obtain ⟨l, c⟩ := p
  obtain ⟨l', c'⟩ := q
  rw [mk.injEq, ← UInt32.toNat_inj, ← UInt32.toNat_inj]
  exact ⟨hp.line.trans hq.line.symm, hp.column.trans hq.column.symm⟩

/-- Reading a text from its beginning counts its newlines and the units of its last line. -/
theorem after_eq (cs : List Char) :
    after cs = ⟨UInt32.ofNat (cs.count '\n' + 1), UInt32.ofNat (units (lastLine cs))⟩ := by
  induction cs using List.reverseRecOn with
  | nil => rfl
  | append_singleton cs c ih =>
      rw [after_concat, ih, step]
      by_cases h : c = '\n'
      · simp [h, UInt32.ofNat_add]
      · simp [h, lastLine_concat h, UInt32.ofNat_add, List.count_cons_of_ne h]

/-- Where a text ends can be told as long as its lines and columns can be counted. -/
theorem after_eq_iff (h : byteLength cs < 2 ^ 32 - 1) : after cs = p ↔ EndsAt cs p := by
  have hends : EndsAt cs (after cs) := by
    have hsize : UInt32.size = 2 ^ 32 := rfl
    have hcount := count_le_byteLength '\n' cs
    have hunits := units_lastLine_le cs
    rw [after_eq]
    constructor
    · exact UInt32.toNat_ofNat_of_lt' (by omega)
    · exact UInt32.toNat_ofNat_of_lt' (by omega)
  constructor
  · rintro rfl
    exact hends
  · exact hends.unique

/-- A position was reached by reading the text up to the offset. -/
theorem ofOffset?_eq_some_iff : ofOffset? text o = some p ↔
    ∃ before rest, text.toList = before ++ rest ∧ byteLength before = o ∧ after before = p := by
  rw [ofOffset?, Option.map_eq_some_iff]
  constructor
  · rintro ⟨before, htake, hafter⟩
    obtain ⟨hlength, rest, htext⟩ := takeBytes?_eq_some_iff.mp htake
    exact ⟨before, rest, htext, hlength, hafter⟩
  · rintro ⟨before, rest, htext, hlength, hafter⟩
    exact ⟨before, takeBytes?_eq_some_iff.mpr ⟨hlength, rest, htext⟩, hafter⟩

/-- A character in front changes where a line begins only if it is a newline itself. -/
theorem opensLine_cons_iff {before : List Char} (c : Char) (line : Nat) :
    (c :: before).count '\n' = line + 1 ∧ lastLine (c :: before) = [] ↔
      before.count '\n' = (if c = '\n' then line else line + 1) ∧ lastLine before = [] := by
  by_cases hc : c = '\n'
  · rw [hc, List.count_cons_self, Nat.add_right_cancel_iff, if_pos rfl,
      show lastLine ('\n' :: before) = lastLine before from lastLine_append_newline [] before]
  · rw [List.count_cons_of_ne hc, if_neg hc]
    refine and_congr_right fun hcount => ?_
    have hmem : '\n' ∈ before := List.count_pos_iff.mp (by omega)
    rw [lastLine_cons_of_mem hmem]

/-- A line begins where as many newlines stand before it, the last of them at its very beginning. -/
theorem lineStart?_eq_some_iff {line : Nat} : lineStart? cs line = some (o, rest) ↔
    ∃ before, cs = before ++ rest ∧ byteLength before = o ∧ before.count '\n' = line ∧
      lastLine before = [] := by
  fun_induction lineStart? cs line generalizing o with
  | case1 cs =>
      rw [Option.some_inj, Prod.mk.injEq]
      constructor
      · rintro ⟨rfl, rfl⟩
        exact ⟨[], rfl, rfl, rfl, lastLine_nil⟩
      · rintro ⟨before, rfl, rfl, hcount, hlast⟩
        obtain rfl : before = [] := by
          rw [← hlast]
          exact (lastLine_append (List.count_eq_zero.mp hcount) []).symm
        exact ⟨rfl, rfl⟩
  | case2 line =>
      refine iff_of_false nofun ?_
      rintro ⟨before, hbefore, -, hcount, -⟩
      obtain ⟨rfl, -⟩ := List.append_eq_nil_iff.mp hbefore.symm
      cases hcount
  | case3 c cs line ih =>
      simp only [Option.map_eq_some_iff, Prod.exists, Prod.mk.injEq]
      constructor
      · rintro ⟨o, rest, hstart, rfl, rfl⟩
        obtain ⟨before, rfl, rfl, hopens⟩ := ih.mp hstart
        exact ⟨c :: before, rfl, Nat.add_comm _ _, (opensLine_cons_iff c line).mpr hopens⟩
      · rintro ⟨before, hcs, rfl, hopens⟩
        cases before with
        | nil => cases hopens.1
        | cons d before =>
            obtain ⟨rfl, rfl⟩ := List.cons.inj hcs
            refine ⟨byteLength before, rest, ih.mpr ?_, Nat.add_comm _ _, rfl⟩
            exact ⟨before, rfl, rfl, (opensLine_cons_iff c line).mp hopens⟩

/-- Up to a column other than the first, a line begins with a character that fits before it. -/
theorem exists_of_cons_eq_append {c : Char} {part : List Char} {column : Nat}
    (hcs : c :: cs = part ++ rest) (hline : '\n' ∉ part) (hunits : units part = column + 1) :
    ∃ tail, part = c :: tail ∧ cs = tail ++ rest ∧ c ≠ '\n' ∧ '\n' ∉ tail ∧
      charUnits c + units tail = column + 1 := by
  cases part with
  | nil => cases hunits
  | cons d tail =>
      obtain ⟨rfl, hbehind⟩ := List.cons.inj hcs
      rw [List.mem_cons, not_or] at hline
      exact ⟨tail, rfl, hbehind, Ne.symm hline.1, hline.2, hunits⟩

/-- A column lies as many units behind the beginning of its line, on the same line. -/
theorem columnOffset?_eq_some_iff {column : Nat} : columnOffset? cs column = some o ↔
    ∃ part rest, cs = part ++ rest ∧ '\n' ∉ part ∧ units part = column ∧ byteLength part = o := by
  fun_induction columnOffset? cs column generalizing o with
  | case1 cs =>
      rw [Option.some_inj]
      constructor
      · rintro rfl
        exact ⟨[], cs, rfl, List.not_mem_nil, rfl, rfl⟩
      · rintro ⟨part, rest, -, -, hunits, rfl⟩
        rw [units_eq_zero_iff.mp hunits]
        rfl
  | case2 column =>
      refine iff_of_false nofun ?_
      rintro ⟨part, rest, hpart, -, hunits, -⟩
      obtain ⟨rfl, -⟩ := List.append_eq_nil_iff.mp hpart.symm
      cases hunits
  | case3 c cs column h ih =>
      rw [Option.map_eq_some_iff]
      constructor
      · rintro ⟨o, hcolumn, rfl⟩
        obtain ⟨part, rest, rfl, hline, hunits, rfl⟩ := ih.mp hcolumn
        refine ⟨c :: part, rest, rfl, ?_, ?_, Nat.add_comm _ _⟩
        · rw [List.mem_cons, not_or]
          exact ⟨Ne.symm h.1, hline⟩
        · rw [units_cons]
          omega
      · rintro ⟨part, rest, hcs, hline, hunits, rfl⟩
        obtain ⟨tail, rfl, rfl, -, htail, hsum⟩ := exists_of_cons_eq_append hcs hline hunits
        refine ⟨byteLength tail, ih.mpr ?_, Nat.add_comm _ _⟩
        exact ⟨tail, rest, rfl, htail, by omega, rfl⟩
  | case4 c cs column h =>
      refine iff_of_false nofun ?_
      rintro ⟨part, rest, hcs, hline, hunits, -⟩
      obtain ⟨tail, -, -, hc, -, hsum⟩ := exists_of_cons_eq_append hcs hline hunits
      exact h ⟨hc, by omega⟩

/-- Up to the offset that a position leads to, the text ends at the position. -/
theorem exists_endsAt_of_toOffset? (h : toOffset? text p = some o) :
    ∃ before rest, text.toList = before ++ rest ∧ byteLength before = o ∧ EndsAt before p := by
  simp only [toOffset?] at h
  split at h
  next => cases h
  next hline =>
    obtain ⟨⟨start, behind⟩, hstart, h⟩ := Option.bind_eq_some_iff.mp h
    obtain ⟨columns, hcolumn, h⟩ := Option.bind_eq_some_iff.mp h
    obtain rfl := Option.some.inj h
    obtain ⟨before, htext, rfl, hcount, hlast⟩ := lineStart?_eq_some_iff.mp hstart
    obtain ⟨part, rest, rfl, hnone, hunits, rfl⟩ := columnOffset?_eq_some_iff.mp hcolumn
    refine ⟨before ++ part, rest, by rw [htext, List.append_assoc], byteLength_append _ _, ?_, ?_⟩
    · have hpos : 0 < p.line.toNat := UInt32.lt_iff_toNat_lt.mp (UInt32.pos_iff_ne_zero.mpr hline)
      rw [List.count_append, List.count_eq_zero.mpr hnone, hcount]
      omega
    · rw [lastLine_append hnone, hlast, List.nil_append, hunits]

/-- A position at which a part of the text ends leads to the end of that part. -/
theorem toOffset?_of_endsAt {before : List Char} (htext : text.toList = before ++ rest)
    (h : EndsAt before p) : toOffset? text p = some (byteLength before) := by
  obtain ⟨hline, hcolumn⟩ := h
  obtain ⟨start, hbefore, hopens, hcount⟩ := exists_append_lastLine before
  have hstart : lineStart? text.toList (p.line.toNat - 1) =
      some (byteLength start, lastLine before ++ rest) := by
    refine lineStart?_eq_some_iff.mpr ⟨start, ?_, rfl, by omega, hopens⟩
    rw [← List.append_assoc, ← hbefore, htext]
  have hcolumns : columnOffset? (lastLine before ++ rest) p.column.toNat =
      some (byteLength (lastLine before)) :=
    columnOffset?_eq_some_iff.mpr ⟨_, rest, rfl, newline_notMem_lastLine before, hcolumn.symm, rfl⟩
  have hne : p.line ≠ 0 := by
    intro h
    rw [h] at hline
    cases hline
  have hlength : byteLength start + byteLength (lastLine before) = byteLength before := by
    rw [← byteLength_append, ← hbefore]
  simp only [toOffset?, if_neg hne, hstart, hcolumns, Option.bind_eq_bind, Option.bind_some,
    Option.pure_def, hlength]

/-- A position leads to the offset up to which the text ends at the position. -/
theorem toOffset?_eq_some_iff : toOffset? text p = some o ↔
    ∃ before rest, text.toList = before ++ rest ∧ byteLength before = o ∧ EndsAt before p := by
  refine ⟨exists_endsAt_of_toOffset?, ?_⟩
  rintro ⟨before, rest, htext, rfl, hends⟩
  exact toOffset?_of_endsAt htext hends

/-- One more character leads to a later position. -/
theorem EndsAt.lt {c : Char} (hp : EndsAt cs p) (hq : EndsAt (cs ++ [c]) q) : p < q := by
  obtain ⟨hline, hcolumn⟩ := hp
  obtain ⟨hline', hcolumn'⟩ := hq
  rw [lt_def, UInt32.lt_iff_toNat_lt, UInt32.lt_iff_toNat_lt, ← UInt32.toNat_inj]
  by_cases hc : c = '\n'
  · left
    rw [hc, List.count_append, List.count_singleton_self] at hline'
    omega
  · right
    have hpos := charUnits_pos c
    rw [List.count_append, List.count_singleton, if_neg (by simpa using hc)] at hline'
    rw [lastLine_concat hc, units_append, units_cons, units_nil] at hcolumn'
    omega

/-- Reading on leads to a later position. -/
theorem after_lt_after_append {more : List Char} (hmore : more ≠ [])
    (h : byteLength (cs ++ more) < 2 ^ 32 - 1) : after cs < after (cs ++ more) := by
  induction more using List.reverseRecOn with
  | nil => exact absurd rfl hmore
  | append_singleton more c ih =>
      rw [← List.append_assoc] at h ⊢
      have hshort : byteLength (cs ++ more) < 2 ^ 32 - 1 := by
        rw [byteLength_append] at h
        omega
      have hstep : after (cs ++ more) < after (cs ++ more ++ [c]) :=
        ((after_eq_iff hshort).mp rfl).lt ((after_eq_iff h).mp rfl)
      rcases eq_or_ne more [] with rfl | hne
      · rwa [List.append_nil] at hstep ⊢
      · exact (ih hne hshort).trans hstep

/-- A greater offset has a later position. -/
theorem lt_of_ofOffset? (h : text.utf8ByteSize < 2 ^ 32 - 1) {o' : Nat}
    (hp : ofOffset? text o = some p) (hq : ofOffset? text o' = some q) (hlt : o < o') : p < q := by
  obtain ⟨before, rest, htext, rfl, rfl⟩ := ofOffset?_eq_some_iff.mp hp
  obtain ⟨before', rest', htext', rfl, rfl⟩ := ofOffset?_eq_some_iff.mp hq
  -- Of two cuts of one text, the part before the smaller is a part of what is before the other.
  rcases List.append_eq_append_iff.mp (htext.symm.trans htext') with
    ⟨more, rfl, -⟩ | ⟨more, rfl, -⟩
  · apply after_lt_after_append
    · rintro rfl
      simp at hlt
    · rw [← byteLength_toList, htext', byteLength_append] at h
      omega
  · rw [byteLength_append] at hlt
    omega

/-- In a text whose lines and columns can be counted, a position is that of an offset exactly if the
offset is that of the position. The offsets between characters are those that have a position, and
they stand in the order of their positions. -/
theorem offsets_isomorphic (h : text.utf8ByteSize < 2 ^ 32 - 1) :
    (∀ o p, ofOffset? text o = some p ↔ toOffset? text p = some o) ∧
      (∀ o, (ofOffset? text o).isSome = true ↔ String.Pos.Raw.IsValid text ⟨o⟩) ∧
      ∀ o o' p p', ofOffset? text o = some p → ofOffset? text o' = some p' →
        (o < o' ↔ p < p') := by
  refine ⟨?_, ?_, ?_⟩
  · intro o p
    rw [ofOffset?_eq_some_iff, toOffset?_eq_some_iff]
    refine exists_congr fun before => exists_congr fun rest => and_congr_right fun htext =>
      and_congr_right fun _ => after_eq_iff ?_
    rw [← byteLength_toList, htext, byteLength_append] at h
    omega
  · intro o
    rw [ofOffset?, Option.isSome_map, isSome_takeBytes?_iff]
  · intro o o' p p' hp hp'
    refine ⟨lt_of_ofOffset? h hp hp', fun hlt => ?_⟩
    rcases Nat.lt_trichotomy o o' with hlt' | rfl | hgt
    · exact hlt'
    · obtain rfl := Option.some.inj (hp.symm.trans hp')
      exact absurd hlt (lt_irrefl p)
    · exact absurd hlt (lt_of_ofOffset? h hp' hp hgt).asymm

/-- A text with characters of one and two units, an empty line and a newline at its end. -/
def mixed : String := "ü😀\n\nb\n"

theorem offsets_isomorphic_mixed : mixed.utf8ByteSize < 2 ^ 32 - 1 ∧
    toOffset? mixed ⟨1, 3⟩ = some 6 ∧ toOffset? mixed ⟨3, 0⟩ = some 8 ∧
    (∀ p, toOffset? mixed p ≠ some 4) ∧ ¬ String.Pos.Raw.IsValid mixed ⟨4⟩ ∧
    (⟨1, 3⟩ : Position) < ⟨3, 0⟩ := by
  have hlength : mixed.utf8ByteSize < 2 ^ 32 - 1 := by decide
  obtain ⟨hinverse, hvalid, horder⟩ := offsets_isomorphic hlength
  have hnewline : ofOffset? mixed 6 = some ⟨1, 3⟩ := by decide
  have hthird : ofOffset? mixed 8 = some ⟨3, 0⟩ := by decide
  have hinside : ofOffset? mixed 4 = none := by decide
  refine ⟨hlength, (hinverse _ _).mp hnewline, (hinverse _ _).mp hthird, ?_, ?_, ?_⟩
  · intro p hp
    rw [← hinverse, hinside] at hp
    cases hp
  · rw [← hvalid, hinside]
    exact Bool.false_ne_true
  · exact (horder _ _ _ _ hnewline hthird).mp (by decide)

end Provenance.Position

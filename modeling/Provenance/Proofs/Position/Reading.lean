import Mathlib.Data.List.TakeDrop
import Mathlib.Data.List.TakeWhile
import Provenance.Position.Reading
import Provenance.Proofs.Text.Decimal

/-!
# Texts of cursor positions

A cursor position is read from exactly the texts of two numbers in decimal with a colon between
them, where blanks may stand around each number, the first number is not zero and both fit in 32
bits. So it is read back from its own numbers (`Position.read_eq_ok_iff_isCursor`).

## Implementation notes

The numbers of `IsCursor` are of any size and its blanks are not removed by `trim`, so it says what
a text means without reading it.
-/

namespace Provenance.Position

open Provenance.Text

variable {part line column : List Char} {n : Nat} {x l c : UInt32} {p : Position}

/-- The text is a number in decimal, possibly with blanks around it. -/
def IsPart (part : List Char) (n : Nat) : Prop := ∃ core, Trimmed part core ∧ IsDecimal core n

/-- The text consists of the two numbers with a colon between them, the first of its colons. -/
def IsCursor (text : String) (l c : Nat) : Prop :=
  ∃ line column, text.toList = line ++ ':' :: column ∧ ':' ∉ line ∧ IsPart line l ∧ IsPart column c

/-- A part is read exactly if it is a number that fits. -/
theorem readPart_eq_ok_iff :
    readPart part = .ok x ↔ ∃ n, IsPart part n ∧ n ≤ 4294967295 ∧ x = UInt32.ofNat n := by
  constructor
  · intro h
    rw [readPart] at h
    cases hread : readDecimal 4294967295 (trim part) with
    | error e =>
        rw [hread] at h
        cases h
    | ok n =>
        rw [hread] at h
        obtain ⟨hdecimal, hbound⟩ := readDecimal_eq_ok_iff.mp hread
        exact ⟨n, ⟨trim part, trim_eq_iff.mp rfl, hdecimal⟩, hbound, (Except.ok.inj h).symm⟩
  · rintro ⟨n, ⟨core, htrimmed, hdecimal⟩, hbound, rfl⟩
    rw [readPart, trim_eq_iff.mpr htrimmed, readDecimal_eq_ok_iff.mpr ⟨hdecimal, hbound⟩]
    rfl

/-- What becomes of two parts that can be read. -/
theorem ofParts_of_readPart (hline : readPart line = .ok l) (hcolumn : readPart column = .ok c) :
    ofParts line column = if l = 0 then .error .lineZero else .ok ⟨l, c⟩ := by
  rw [ofParts, hline, hcolumn]
  rfl

/-- Both parts have to be read, and the first must not be zero. -/
theorem ofParts_eq_ok_iff : ofParts line column = .ok p ↔
    readPart line = .ok p.line ∧ readPart column = .ok p.column ∧ p.line ≠ 0 := by
  constructor
  · intro h
    cases hline : readPart line with
    | error e =>
        rw [ofParts, hline] at h
        cases h
    | ok l =>
        cases hcolumn : readPart column with
        | error e =>
            rw [ofParts, hline, hcolumn] at h
            cases h
        | ok c =>
            rw [ofParts_of_readPart hline hcolumn] at h
            by_cases hzero : l = 0
            · rw [if_pos hzero] at h
              cases h
            · rw [if_neg hzero] at h
              obtain rfl : ⟨l, c⟩ = p := Except.ok.inj h
              exact ⟨rfl, rfl, hzero⟩
  · rintro ⟨hline, hcolumn, hzero⟩
    rw [ofParts_of_readPart hline hcolumn, if_neg hzero]

/-- A text with a colon is split at its first one. -/
theorem read_of_split {text : String} (htext : text.toList = line ++ ':' :: column)
    (hline : ':' ∉ line) : read text = ofParts line column := by
  have hall : ∀ c ∈ line, decide (c ≠ ':') = true := by
    intro c hc
    exact decide_eq_true fun h => hline (h ▸ hc)
  have hspan : text.toList.span (· ≠ ':') = (line, ':' :: column) := by
    rw [htext, List.span_eq_takeWhile_dropWhile, List.takeWhile_append_of_pos hall,
      List.dropWhile_append_of_pos hall]
    simp
  rw [read]
  split
  next hsplit =>
    obtain ⟨rfl, hrest⟩ := Prod.ext_iff.mp (hspan.symm.trans hsplit)
    obtain rfl := (List.cons.inj hrest).2
    rfl
  next hnone => exact absurd hspan (hnone line column)

/-- A text without a colon is no cursor position. -/
theorem read_of_notMem {text : String} (h : ':' ∉ text.toList) :
    read text = .error (.missingColon text) := by
  have hall : ∀ c ∈ text.toList, decide (c ≠ ':') = true := by
    intro c hc
    exact decide_eq_true fun hcolon => h (hcolon ▸ hc)
  have hspan : text.toList.span (· ≠ ':') = (text.toList, []) := by
    rw [List.span_eq_takeWhile_dropWhile, List.takeWhile_eq_self_iff.mpr hall,
      List.dropWhile_eq_nil_iff.mpr hall]
  rw [read]
  split
  next hsplit =>
    have hrest := congrArg Prod.snd (hspan.symm.trans hsplit)
    cases hrest
  next => rfl

/-- The characters before and after the first colon are read, if there is one. -/
theorem read_eq_ok_iff {text : String} : read text = .ok p ↔
    ∃ line column, text.toList = line ++ ':' :: column ∧ ':' ∉ line ∧
      ofParts line column = .ok p := by
  constructor
  · intro h
    by_cases hcolon : ':' ∈ text.toList
    · obtain ⟨line, column, htext, hline⟩ := List.eq_append_cons_of_mem hcolon
      exact ⟨line, column, htext, hline, read_of_split htext hline ▸ h⟩
    · rw [read_of_notMem hcolon] at h
      cases h
  · rintro ⟨line, column, htext, hline, hparts⟩
    rw [read_of_split htext hline, hparts]

/-! ## Written positions -/

theorem isBlank_of_isDigit {c : Char} (h : c.isDigit = true) : isBlank c = false := by
  have hrange : 48 ≤ c.toNat ∧ c.toNat ≤ 57 := by
    simpa [Char.isDigit, UInt32.le_iff_toNat_le] using h
  simp only [isBlank, Bool.or_eq_false_iff, Bool.and_eq_false_iff, decide_eq_false_iff_not,
    beq_eq_false_iff_ne]
  omega

/-- A number that is written without blanks is a part. -/
theorem isPart_decimal (n : Nat) : IsPart (decimal n) n := by
  refine ⟨decimal n, trimmed_self ?_ ?_, isDecimal_decimal n⟩
  · exact fun c hc => isBlank_of_isDigit (isDigit_of_mem_decimal (List.mem_of_head? hc))
  · exact fun c hc => isBlank_of_isDigit (isDigit_of_mem_decimal (List.mem_of_getLast? hc))

theorem readPart_decimal (x : UInt32) : readPart (decimal x.toNat) = .ok x :=
  readPart_eq_ok_iff.mpr ⟨x.toNat, isPart_decimal x.toNat, Nat.le_of_lt_succ x.toNat_lt,
    UInt32.ofNat_toNat.symm⟩

theorem colon_notMem_decimal (n : Nat) : ':' ∉ decimal n :=
  fun h => absurd (isDigit_of_mem_decimal h) (by decide)

theorem toList_written (l c : Nat) :
    (toString l ++ ":" ++ toString c).toList = decimal l ++ ':' :: decimal c := by
  rw [String.toList_append, String.toList_append, Nat.toString_eq_repr, Nat.toString_eq_repr,
    Nat.toList_repr, Nat.toList_repr, List.append_assoc]
  rfl

/-- Exactly the texts of two numbers in decimal with a colon between them are read, where blanks may
stand around each number, if both fit in 32 bits and the first is not zero. A position that is
written in this way is read back, and only its line number may be wrong. -/
theorem read_eq_ok_iff_isCursor (text : String) (p : Position) :
    (read text = .ok p ↔ ∃ l c, IsCursor text l c ∧ 1 ≤ l ∧ l ≤ 4294967295 ∧ c ≤ 4294967295 ∧
        p = ⟨UInt32.ofNat l, UInt32.ofNat c⟩) ∧
      read (toString p.line.toNat ++ ":" ++ toString p.column.toNat) =
        if p.line = 0 then .error .lineZero else .ok p := by
  constructor
  · rw [read_eq_ok_iff]
    constructor
    · rintro ⟨line, column, htext, hcolon, hparts⟩
      obtain ⟨hline, hcolumn, hzero⟩ := ofParts_eq_ok_iff.mp hparts
      obtain ⟨l, hl, hlBound, hlValue⟩ := readPart_eq_ok_iff.mp hline
      obtain ⟨c, hc, hcBound, hcValue⟩ := readPart_eq_ok_iff.mp hcolumn
      have hpos : 1 ≤ l := by
        by_contra hlt
        obtain rfl : l = 0 := by omega
        exact hzero hlValue
      refine ⟨l, c, ⟨line, column, htext, hcolon, hl, hc⟩, hpos, hlBound, hcBound, ?_⟩
      rw [← hlValue, ← hcValue]
    · rintro ⟨l, c, ⟨line, column, htext, hcolon, hl, hc⟩, hpos, hlBound, hcBound, rfl⟩
      refine ⟨line, column, htext, hcolon, ofParts_eq_ok_iff.mpr ⟨?_, ?_, ?_⟩⟩
      · exact readPart_eq_ok_iff.mpr ⟨l, hl, hlBound, rfl⟩
      · exact readPart_eq_ok_iff.mpr ⟨c, hc, hcBound, rfl⟩
      · intro hzero
        have hvalue := congrArg UInt32.toNat hzero
        rw [UInt32.toNat_ofNat_of_lt' (Nat.lt_succ_of_le hlBound)] at hvalue
        exact absurd hvalue (Nat.ne_of_gt hpos)
  · rw [read_of_split (toList_written _ _) (colon_notMem_decimal _),
      ofParts_of_readPart (readPart_decimal p.line) (readPart_decimal p.column)]

example : read "\u00a0+007 : 42" = .ok ⟨7, 42⟩ := by decide

end Provenance.Position

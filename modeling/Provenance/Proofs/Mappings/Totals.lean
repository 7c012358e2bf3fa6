import Mathlib.Data.List.Forall2
import Provenance.Proofs.Mappings.Segments

/-!
# Exact totals of differences

The numbers of a mappings text are differences, and their exact totals are integers without bounds.
A decoder whose running values wrap around keeps these totals modulo 2^32 (`decode_stages`). A total
that was within the range of positions stays within it, as long as its remainder does, exactly if
the difference is at most 2^31 in either direction (`forall_within_iff`).

## Implementation notes

A total says nothing of the numbers that led to it, and a segment without a place moves the column
alone. Stages therefore keep both, the numbers of a segment and the totals after it.
-/

namespace Provenance.Mappings

open Provenance.Text

/-- Exact totals: of the generated column on its line, and of the line and the column in the
source. -/
structure Totals where
  column : Int
  line : Int
  sourceColumn : Int
  deriving DecidableEq, Repr

/-- A segment in numbers, and the totals behind it. -/
structure Stage where
  numbers : List Int
  totals : Totals
  deriving DecidableEq, Repr

namespace Totals

/-- The totals at the beginning of the text. -/
def zero : Totals := ⟨0, 0, 0⟩

/-- The totals after the numbers of a segment. -/
def add (t : Totals) : List Int → Totals
  | [column] => { t with column := t.column + column }
  | column :: _ :: line :: sourceColumn :: _ =>
    ⟨t.column + column, t.line + line, t.sourceColumn + sourceColumn⟩
  | _ => t

/-- The stages of one line. -/
def stagesOfLine : Totals → List (List Int) → List Stage
  | _, [] => []
  | t, ns :: rest => ⟨ns, t.add ns⟩ :: stagesOfLine (t.add ns) rest

/-- The stages of lines, each of which begins at column 0. -/
def stagesOfLines : Totals → List (List (List Int)) → List Stage
  | _, [] => []
  | t, line :: rest =>
    let t := { t with column := 0 }
    t.stagesOfLine line ++ stagesOfLines (line.foldl add t) rest

/-- All totals are lines or columns that a position may have. -/
structure Within (t : Totals) : Prop where
  column : 0 ≤ t.column ∧ t.column < 2 ^ 31
  line : 0 ≤ t.line ∧ t.line < 2 ^ 31
  sourceColumn : 0 ≤ t.sourceColumn ∧ t.sourceColumn < 2 ^ 31

end Totals

/-- The numbers of a segment. A text that cannot be read has none. -/
def numbersOf (text : List Char) : List Int := (numbers text).toOption.getD []

/-- The numbers of the segments of a line. -/
def numbersOfLine (line : List Char) : List (List Int) := (lineSegments line).map numbersOf

/-- The stages of a mappings text. -/
def stages (mappings : String) : List Stage :=
  Totals.zero.stagesOfLines ((splitAt ';' mappings.toList).map numbersOfLine)

/-- The numbers of a segment that are added to lines and columns. -/
def positionNumbers : List Int → List Int
  | [column] => [column]
  | column :: _ :: line :: sourceColumn :: _ => [column, line, sourceColumn]
  | _ => []

namespace Stage

/-- No line or column is moved by more than 2^31. -/
def Moderate (s : Stage) : Prop := ∀ n ∈ positionNumbers s.numbers, n.natAbs ≤ 2 ^ 31

/-- The remainders of the totals that the segment mentions are within the range of positions. -/
structure Fits (s : Stage) : Prop where
  column : s.totals.column % 2 ^ 32 < 2 ^ 31
  line : 4 ≤ s.numbers.length → s.totals.line % 2 ^ 32 < 2 ^ 31
  sourceColumn : 4 ≤ s.numbers.length → s.totals.sourceColumn % 2 ^ 32 < 2 ^ 31

end Stage

/-! ## Totals as words -/

/-- The word that an exact number becomes. -/
def wrap (x : Int) : UInt32 := UInt32.ofNat (x % 2 ^ 32).toNat

theorem toNat_wrap (x : Int) : ((wrap x).toNat : Int) = x % 2 ^ 32 := by
  have hnonneg : 0 ≤ x % 2 ^ 32 := Int.emod_nonneg x (by decide)
  have hlt : x % 2 ^ 32 < 2 ^ 32 := Int.emod_lt_of_pos x (by decide)
  rw [wrap, UInt32.toNat_ofNat', Nat.mod_eq_of_lt (by omega), Int.toNat_of_nonneg hnonneg]

/-- Moving a word moves the number that it stands for. -/
theorem move_wrap (x difference : Int) : move (wrap x) difference = wrap (x + difference) := by
  rw [move, toNat_wrap, Int.emod_add_emod]
  rfl

/-- The running values are the totals as words. -/
structure Running.Wraps (r : Running) (t : Totals) : Prop where
  column : r.column = wrap t.column
  line : r.line = wrap t.line
  sourceColumn : r.sourceColumn = wrap t.sourceColumn

/-- The decoded segment has the totals of the stage as words, as far as it mentions them. -/
structure Stage.Tells (s : Stage) (raw : RawSegment) : Prop where
  shaped : Shaped s.numbers raw.origin.isSome raw.name.isSome
  column : raw.column = wrap s.totals.column
  origin : ∀ o ∈ raw.origin, o.line = wrap s.totals.line ∧ o.column = wrap s.totals.sourceColumn

theorem Running.wraps_zero : Running.zero.Wraps .zero := ⟨by decide, by decide, by decide⟩

section Decoding

variable {tables : Tables} {line : UInt32} {r r' : Running} {t : Totals}

/-- A new line begins at column 0 for the words and for the totals. -/
theorem Running.Wraps.newLine (h : r.Wraps t) :
    Running.Wraps { r with column := 0 } { t with column := 0 } :=
  ⟨(by decide : (0 : UInt32) = wrap 0), h.line, h.sourceColumn⟩

/-- Applying the numbers of a segment adds them to the totals. -/
theorem wraps_of_applied {ns : List Int} {raw : RawSegment} (hr : r.Wraps t)
    (h : Applied tables line r ns r' raw) :
    r'.Wraps (t.add ns) ∧ Stage.Tells ⟨ns, t.add ns⟩ raw := by
  obtain ⟨hcolumn, hline, hsourceColumn⟩ := hr
  have hwraps : r'.Wraps (t.add ns) := by
    cases h with
    | bare running =>
        rw [running]
        exact ⟨by rw [hcolumn, move_wrap]; rfl, hline, hsourceColumn⟩
    | mapped running =>
        rw [running]
        constructor <;> simp only [hcolumn, hline, hsourceColumn, move_wrap] <;> rfl
    | named running =>
        rw [running]
        constructor <;> simp only [hcolumn, hline, hsourceColumn, move_wrap] <;> rfl
  refine ⟨hwraps, ?_⟩
  cases h with
  | bare => exact ⟨by simp [Shaped], hwraps.column, nofun⟩
  | mapped =>
      refine ⟨by simp [Shaped], hwraps.column, ?_⟩
      rintro o ⟨⟩
      exact ⟨hwraps.line, hwraps.sourceColumn⟩
  | named =>
      refine ⟨by simp [Shaped], hwraps.column, ?_⟩
      rintro o ⟨⟩
      exact ⟨hwraps.line, hwraps.sourceColumn⟩

theorem numbersOf_eq {text : List Char} {ns : List Int} (h : numbers text = .ok ns) :
    numbersOf text = ns := by
  rw [numbersOf, h]
  rfl

/-- Each segment of a line tells of its own stage, and the running values go on from the last. -/
theorem DecodesLine.tells {texts : List (List Char)} {raws : List RawSegment}
    (h : DecodesLine tables line r texts r' raws) (hr : r.Wraps t) :
    r'.Wraps ((texts.map numbersOf).foldl Totals.add t) ∧
      List.Forall₂ Stage.Tells (t.stagesOfLine (texts.map numbersOf)) raws := by
  induction h generalizing t with
  | nil => exact ⟨hr, .nil⟩
  | cons read applied _ ih =>
      obtain ⟨hwraps, htells⟩ := wraps_of_applied hr applied
      obtain ⟨hlast, hrest⟩ := ih hwraps
      rw [List.map_cons, numbersOf_eq read]
      exact ⟨hlast, .cons htells hrest⟩

theorem DecodesLines.tells {number : Nat} {texts : List (List Char)} {raws : List RawSegment}
    (h : DecodesLines tables number r texts raws) (hr : r.Wraps t) :
    List.Forall₂ Stage.Tells (t.stagesOfLines (texts.map numbersOfLine)) raws := by
  induction h generalizing t with
  | nil => exact .nil
  | cons line _ ih =>
      obtain ⟨hwraps, hsegments⟩ := line.tells hr.newLine
      exact List.rel_append hsegments (ih hwraps)

/-- The decoded segments have the exact totals of the text modulo 2^32. -/
theorem decode_stages {mappings : String} {raws : List RawSegment}
    (h : decode tables mappings = .ok raws) :
    List.Forall₂ Stage.Tells (stages mappings) raws :=
  (decodesLines_of_decodeLines h).tells Running.wraps_zero

end Decoding

/-! ## Totals within the range of positions -/

namespace Totals

variable {t : Totals}

theorem within_zero : zero.Within := by
  constructor <;> decide

theorem Within.newLine (h : t.Within) : Within { t with column := 0 } :=
  ⟨within_zero.column, h.line, h.sourceColumn⟩

/-- From within the range, a number whose remainder is within it is reached by a difference of at
most 2^31 exactly if it is itself within the range: any other is more than 2^31 away. -/
theorem within_iff_natAbs_le {x difference : Int} (hx : 0 ≤ x ∧ x < 2 ^ 31)
    (hfits : (x + difference) % 2 ^ 32 < 2 ^ 31) :
    (0 ≤ x + difference ∧ x + difference < 2 ^ 31) ↔ difference.natAbs ≤ 2 ^ 31 := by
  omega

/-- A stage that fits is within the range exactly if its numbers are moderate. -/
theorem within_add_iff (h : t.Within) {ns : List Int} (hfits : Stage.Fits ⟨ns, t.add ns⟩) :
    (t.add ns).Within ↔ Stage.Moderate ⟨ns, t.add ns⟩ := by
  obtain ⟨hcolumn, hline, hsourceColumn⟩ := h
  unfold add at hfits ⊢
  split at hfits
  case h_1 column =>
    have hiff := within_iff_natAbs_le hcolumn hfits.column
    simp only [Stage.Moderate, positionNumbers, List.mem_singleton, forall_eq, ← hiff]
    exact ⟨fun hw => hw.column, fun hc => ⟨hc, hline, hsourceColumn⟩⟩
  case h_2 column source line sourceColumn rest =>
    have hlength : 4 ≤ (column :: source :: line :: sourceColumn :: rest).length := by simp
    have hiff := within_iff_natAbs_le hcolumn hfits.column
    have hiff' := within_iff_natAbs_le hline (hfits.line hlength)
    have hiff'' := within_iff_natAbs_le hsourceColumn (hfits.sourceColumn hlength)
    simp only [Stage.Moderate, positionNumbers, List.forall_mem_cons, ← hiff, ← hiff', ← hiff'']
    exact ⟨fun hw => ⟨hw.column, hw.line, hw.sourceColumn, nofun⟩,
      fun ⟨hc, hl, hs, _⟩ => ⟨hc, hl, hs⟩⟩
  case h_3 hone hfour =>
    have hnone : positionNumbers ns = [] := by
      unfold positionNumbers
      split
      · exact absurd rfl (hone _)
      · exact absurd rfl (hfour _ _ _ _ _)
      · rfl
    simp only [Stage.Moderate, hnone]
    exact iff_of_true ⟨hcolumn, hline, hsourceColumn⟩ nofun

theorem within_foldl (h : t.Within) {line : List (List Int)}
    (hline : ∀ s ∈ t.stagesOfLine line, s.totals.Within) : (line.foldl add t).Within := by
  induction line generalizing t with
  | nil => exact h
  | cons ns rest ih =>
      rw [stagesOfLine, List.forall_mem_cons] at hline
      exact ih hline.1 hline.2

theorem forall_within_line_iff (h : t.Within) {line : List (List Int)}
    (hfits : ∀ s ∈ t.stagesOfLine line, s.Fits) :
    (∀ s ∈ t.stagesOfLine line, s.totals.Within) ↔ ∀ s ∈ t.stagesOfLine line, s.Moderate := by
  induction line generalizing t with
  | nil => exact iff_of_true nofun nofun
  | cons ns rest ih =>
      rw [stagesOfLine, List.forall_mem_cons] at hfits
      rw [stagesOfLine, List.forall_mem_cons, List.forall_mem_cons, ← within_add_iff h hfits.1]
      exact and_congr_right fun hw => ih hw hfits.2

/-- Stages that fit are all within the range exactly if all of them are moderate. -/
theorem forall_within_iff (h : t.Within) {lines : List (List (List Int))}
    (hfits : ∀ s ∈ t.stagesOfLines lines, s.Fits) :
    (∀ s ∈ t.stagesOfLines lines, s.totals.Within) ↔ ∀ s ∈ t.stagesOfLines lines, s.Moderate := by
  induction lines generalizing t with
  | nil => exact iff_of_true nofun nofun
  | cons line rest ih =>
      rw [stagesOfLines, List.forall_mem_append] at hfits
      rw [stagesOfLines, List.forall_mem_append, List.forall_mem_append,
        ← forall_within_line_iff h.newLine hfits.1]
      exact and_congr_right fun hw => ih (within_foldl h.newLine hw) hfits.2

end Totals

end Provenance.Mappings

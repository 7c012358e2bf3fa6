import Provenance.Proofs.Atlas.Representation
import Provenance.Proofs.Mappings.Totals

/-!
# Exact positions

The positions of an atlas are the exact totals of the differences in the mappings text, as far as
words of 32 bits can tell. Whether they are in range is checked when they have become words, and so
a difference of more than 2^31 can lead out of the range and into it again. Only such a difference
can: all exact totals of an accepted map are in range if and only if it has none
(`exact_iff_moderate`).
-/

namespace Provenance

open Provenance.Mappings

/-- The segment stores what `read` makes of the totals of the stage, with lines counted from 1. -/
structure Segment.Stores (read : Int → Int) (stage : Stage) (s : Segment) : Prop where
  column : (s.generated.column.toNat : Int) = read stage.totals.column
  line : ∀ o ∈ s.origin, (o.line.toNat : Int) = read stage.totals.line + 1
  sourceColumn : ∀ o ∈ s.origin, (o.column.toNat : Int) = read stage.totals.sourceColumn

namespace Mappings.Stage

variable {stage : Stage} {raw : RawSegment}

instance : Decidable stage.Moderate :=
  inferInstanceAs (Decidable (∀ n ∈ positionNumbers stage.numbers, n.natAbs ≤ 2 ^ 31))

/-- A word up to the limit has a remainder in range. -/
theorem emod_lt_of_le_limit {word : UInt32} {x : Int} (hword : word = wrap x)
    (hle : word ≤ Segment.limit) : x % 2 ^ 32 < 2 ^ 31 := by
  have hlimit : Segment.limit.toNat = 2 ^ 31 - 1 := rfl
  rw [UInt32.le_iff_toNat_le, hlimit] at hle
  rw [← toNat_wrap, ← hword]
  omega

theorem Tells.fits (h : stage.Tells raw) (hin : raw.InRange) : stage.Fits := by
  have horigin (hlength : 4 ≤ stage.numbers.length) : ∃ o, o ∈ raw.origin :=
    Option.isSome_iff_exists.mp (h.shaped.2.1.mpr hlength)
  constructor
  · exact emod_lt_of_le_limit h.column hin.2.1
  · intro hlength
    obtain ⟨o, ho⟩ := horigin hlength
    exact emod_lt_of_le_limit (h.origin o ho).1 (hin.2.2 o ho).1
  · intro hlength
    obtain ⟨o, ho⟩ := horigin hlength
    exact emod_lt_of_le_limit (h.origin o ho).2 (hin.2.2 o ho).2

/-- The segment that is made of words stores the totals modulo 2^32. -/
theorem Tells.stores (h : stage.Tells raw) (hin : raw.InRange) :
    Segment.Stores (· % 2 ^ 32) stage (Segment.ofShifted raw) := by
  constructor
  · change (raw.column.toNat : Int) = _
    rw [h.column, toNat_wrap]
  · intro o ho
    obtain ⟨o', ho', rfl⟩ := Option.map_eq_some_iff.mp ho
    change ((o'.line + 1).toNat : Int) = _
    rw [Segment.toNat_succ (hin.2.2 o' ho').1, Int.natCast_add, (h.origin o' ho').1, toNat_wrap]
    rfl
  · intro o ho
    obtain ⟨o', ho', rfl⟩ := Option.map_eq_some_iff.mp ho
    change (o'.column.toNat : Int) = _
    rw [(h.origin o' ho').2, toNat_wrap]

end Mappings.Stage

/-- Totals within the range are their own remainders. -/
theorem Segment.Stores.exact {stage : Stage} {s : Segment}
    (h : Segment.Stores (· % 2 ^ 32) stage s) (hw : stage.totals.Within) :
    Segment.Stores id stage s := by
  have hself {x : Int} (hx : 0 ≤ x ∧ x < 2 ^ 31) : x % 2 ^ 32 = x := by omega
  obtain ⟨hcolumn, hline, hsourceColumn⟩ := h
  simp only [hself hw.column, hself hw.line, hself hw.sourceColumn] at hcolumn hline hsourceColumn
  exact ⟨hcolumn, hline, hsourceColumn⟩

namespace Atlas

variable {m : SourceMap} {a : Atlas}

/-- A map whose only column is 2^32 to the left of the beginning of the line. -/
def overshot : SourceMap := ⟨3, none, [], [], "hgggggI", none, none⟩

/-- The atlas of `overshot`. -/
def overshotAtlas : Atlas where
  sources := #[]
  sourceRoot := none
  contents := #[]
  names := #[]
  segments := #[⟨⟨1, 0⟩, none, none⟩]
  origins := #[]

theorem ofSourceMap_overshot : ofSourceMap overshot = .ok overshotAtlas := by
  simp only [ofSourceMap, mergeSort_rawLe, mergeSort_originLe]
  decide +kernel

theorem stages_overshot : stages overshot.mappings = [⟨[-2 ^ 32], ⟨-2 ^ 32, 0, 0⟩⟩] := by
  decide +kernel

/-- An accepted map can have totals that are out of range, and that are not stored. -/
theorem not_forall_exact :
    ¬ ∀ (m : SourceMap) (a : Atlas), ofSourceMap m = .ok a →
      (∀ stage ∈ stages m.mappings, stage.totals.Within) ∧
        List.Forall₂ (Segment.Stores id) (stages m.mappings) m.written := by
  intro hall
  obtain ⟨hwithin, -⟩ := hall overshot overshotAtlas ofSourceMap_overshot
  rw [stages_overshot, List.forall_mem_singleton] at hwithin
  exact absurd hwithin.column.1 (by decide)

/-- The segments of an accepted map, in the order of writing, store the exact totals of its
differences modulo 2^32. These totals are all in range exactly if no line or column is moved by more
than 2^31 at once, and then they are what is stored. -/
theorem exact_iff_moderate (h : ofSourceMap m = .ok a) :
    StablySorted Segment.generated m.written a.segments.toList ∧
    List.Forall₂ (Segment.Stores (· % 2 ^ 32)) (stages m.mappings) m.written ∧
    ((∀ stage ∈ stages m.mappings, stage.totals.Within) ↔
      ∀ stage ∈ stages m.mappings, stage.Moderate) ∧
    ((∀ stage ∈ stages m.mappings, stage.Moderate) →
      List.Forall₂ (Segment.Stores id) (stages m.mappings) m.written) := by
  obtain ⟨-, ⟨raws, hraws, hin⟩, -⟩ := ofSourceMap_eq_ok_iff.mp h
  have htells := decode_stages hraws
  have hfits : ∀ stage ∈ stages m.mappings, stage.Fits := by
    intro stage hstage
    obtain ⟨i, hi, rfl⟩ := List.mem_iff_getElem.mp hstage
    have hi' : i < raws.length := htells.length_eq ▸ hi
    exact (htells.get hi hi').fits (hin _ (List.getElem_mem hi'))
  have hstores : List.Forall₂ (Segment.Stores (· % 2 ^ 32)) (stages m.mappings) m.written := by
    have hchecked := (List.forall₂_and_left raws _).mpr ⟨hin, htells.flip⟩
    rw [SourceMap.written, hraws, List.forall₂_map_right_iff]
    exact hchecked.flip.imp fun _ _ h => h.2.stores h.1
  have hiff := Totals.forall_within_iff Totals.within_zero hfits
  refine ⟨stablySorted_segments h, hstores, hiff, ?_⟩
  intro hmoderate
  have hwithin := (List.forall₂_and_left _ m.written).mpr ⟨hiff.mpr hmoderate, hstores⟩
  exact hwithin.imp fun _ _ h => h.2.exact h.1

theorem exact_iff_moderate_tangled : ofSourceMap tangled = .ok tangledAtlas ∧
    ofSourceMap overshot = .ok overshotAtlas ∧
    (∀ stage ∈ stages tangled.mappings, stage.totals.Within) ∧
    List.Forall₂ (Segment.Stores id) (stages tangled.mappings) tangled.written ∧
    List.Forall₂ (Segment.Stores (· % 2 ^ 32)) (stages overshot.mappings) overshot.written := by
  have hmoderate : ∀ stage ∈ stages tangled.mappings, stage.Moderate := by decide +kernel
  obtain ⟨-, -, hwithin, hexact⟩ := exact_iff_moderate ofSourceMap_tangled
  obtain ⟨-, hwrapped, -⟩ := exact_iff_moderate ofSourceMap_overshot
  exact ⟨ofSourceMap_tangled, ofSourceMap_overshot, hwithin.mpr hmoderate, hexact hmoderate,
    hwrapped⟩

end Atlas

end Provenance

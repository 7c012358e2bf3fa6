import Provenance.Proofs.Atlas.RoundTrip
import Provenance.Proofs.Mappings.Segments

/-!
# What an atlas represents

An atlas has one segment for each segment of the mappings text that is not empty. Its tables are
sorted, its positions are in range, and whatever it refers to is in the tables of the map.

## Implementation notes

`Atlas.Represents` compares the atlas with the segments in the order of writing, and these with the
mappings text. Sorting keeps the segments, so all that is known of each of them goes over to the
atlas.
-/

namespace Provenance

open Provenance.Mappings

/-- The second list is the first one sorted by a key; entries with one key stand as they stood. -/
structure StablySorted {α κ : Type} [LinearOrder κ] (key : α → κ) (xs ys : List α) : Prop where
  perm : ys.Perm xs
  sorted : ys.Pairwise fun x y => key x ≤ key y
  tied : ∀ k, ys.filter (fun x => decide (key x = k)) = xs.filter fun x => decide (key x = k)

/-- The line counts from 1 up to 2^31, and the column stays below 2^31. -/
structure Position.InRange (p : Position) : Prop where
  one_le_line : 1 ≤ p.line.toNat
  line_le : p.line.toNat ≤ 2 ^ 31
  column_le : p.column.toNat ≤ 2 ^ 31 - 1

namespace Segment

/-- The segment is on the line of its text and has what the numbers there give it. -/
structure Describes (text : Nat × List Char) (s : Segment) : Prop where
  line_eq : s.generated.line = UInt32.ofNat (text.1 + 1)
  shaped : ∃ ns, numbers text.2 = .ok ns ∧ Shaped ns s.origin.isSome s.name.isSome

/-- A line up to the limit does not wrap around when it is counted from 1. -/
theorem toNat_succ {line : UInt32} (hline : line ≤ limit) :
    (line + 1).toNat = line.toNat + 1 := by
  have hlimit : limit.toNat = 2 ^ 31 - 1 := rfl
  rw [UInt32.le_iff_toNat_le, hlimit] at hline
  rw [UInt32.toNat_add]
  exact Nat.mod_eq_of_lt (by simp; omega)

theorem inRange_shiftedPosition {line column : UInt32} (hline : line ≤ limit)
    (hcolumn : column ≤ limit) : (shiftedPosition line column).InRange := by
  have hlimit : limit.toNat = 2 ^ 31 - 1 := rfl
  have hsucc := toNat_succ hline
  rw [UInt32.le_iff_toNat_le, hlimit] at hline hcolumn
  constructor
  · rw [shiftedPosition, hsucc]
    omega
  · rw [shiftedPosition, hsucc]
    omega
  · exact hcolumn

theorem describes_ofShifted {tables : Tables} {text : Nat × List Char} {raw : RawSegment}
    (h : Reads tables (UInt32.ofNat text.1) text.2 raw) : Describes text (ofShifted raw) where
  line_eq := by
    rw [ofShifted, shiftedPosition, h.line_eq, UInt32.ofNat_add]
    rfl
  shaped := by
    obtain ⟨ns, hns, hshaped⟩ := h.shaped
    refine ⟨ns, hns, ?_⟩
    rw [ofShifted, Option.isSome_map]
    exact hshaped

end Segment

namespace Atlas

variable {m : SourceMap} {a : Atlas}

/-- What an accepted map and its atlas have to do with each other. -/
structure Represents (m : SourceMap) (a : Atlas) : Prop where
  sources : a.sources.toList = m.sources
  names : a.names.toList = m.names
  written : List.Forall₂ Segment.Describes (segmentTexts m.mappings) m.written
  segments : StablySorted Segment.generated m.written a.segments.toList
  origins_perm : a.origins.toList.Perm (originsOf a.segments.toList)
  origins_sorted : a.origins.toList.Pairwise fun x y => x.1 < y.1 ∨ x.1 = y.1 ∧ x.2 ≤ y.2
  generated_inRange : ∀ s ∈ a.segments, s.generated.InRange
  origin_inRange : ∀ s ∈ a.segments, ∀ o ∈ s.origin, o.position.InRange
  source_lt : ∀ s ∈ a.segments, ∀ o ∈ s.origin, o.source.toNat < m.sources.length
  name_lt : ∀ s ∈ a.segments, ∀ name ∈ s.name, name.toNat < m.names.length

/-- The segments of an accepted map are sorted, and ties stay in the order of writing. -/
theorem stablySorted_segments (h : ofSourceMap m = .ok a) :
    StablySorted Segment.generated m.written a.segments.toList where
  perm := by
    obtain ⟨-, -, rfl⟩ := ofSourceMap_eq_ok_iff.mp h
    exact List.mergeSort_perm _ _
  sorted := (ordered_ofSourceMap h).segments_sorted
  tied := filter_segments h

/-- Each segment of an atlas is a decoded one that was found in range. -/
theorem exists_raw_of_mem_segments (h : ofSourceMap m = .ok a) {raws : List RawSegment}
    (hraws : m.raw = .ok raws) {s : Segment} (hs : s ∈ a.segments) :
    ∃ r ∈ raws, r.InRange ∧ s = Segment.ofShifted r := by
  obtain ⟨-, ⟨raws', hraws', hin⟩, -⟩ := ofSourceMap_eq_ok_iff.mp h
  obtain rfl : raws' = raws := Except.ok.inj (hraws'.symm.trans hraws)
  rw [← Array.mem_toList_iff, (stablySorted_segments h).perm.mem_iff, SourceMap.written,
    hraws] at hs
  obtain ⟨r, hr, rfl⟩ := List.mem_map.mp hs
  exact ⟨r, hr, hin r hr, rfl⟩

/-- The atlas of an accepted map represents the map. -/
theorem represents_ofSourceMap (h : ofSourceMap m = .ok a) : Represents m a := by
  obtain ⟨-, ⟨raws, hraws, -⟩, hatlas⟩ := ofSourceMap_eq_ok_iff.mp h
  have hreads := decode_spec hraws
  have hwritten : m.written = raws.map Segment.ofShifted := by rw [SourceMap.written, hraws]
  have hsegments {s : Segment} (hs : s ∈ a.segments) := exists_raw_of_mem_segments h hraws hs
  -- The decoder has checked each reference, and this does not depend on the order.
  have hrefers {r : RawSegment} (hr : r ∈ raws) :
      (∀ o ∈ r.origin, o.source.toNat < m.sources.length) ∧
        ∀ name ∈ r.name, name.toNat < m.names.length := by
    obtain ⟨i, hi, rfl⟩ := List.mem_iff_getElem.mp hr
    have hread := hreads.get (hreads.length_eq ▸ hi) hi
    exact ⟨hread.source_lt, hread.name_lt⟩
  constructor
  case sources => rw [hatlas, ofWritten]
  case names => rw [hatlas, ofWritten]
  case written =>
    rw [hwritten, List.forall₂_map_right_iff]
    exact hreads.imp fun _ _ => Segment.describes_ofShifted
  case segments => exact stablySorted_segments h
  case origins_perm => exact (ordered_ofSourceMap h).origins_perm
  case origins_sorted => exact (ordered_ofSourceMap h).origins_sorted.imp originLe_iff.mp
  case generated_inRange =>
    intro s hs
    obtain ⟨r, -, hin, rfl⟩ := hsegments hs
    exact Segment.inRange_shiftedPosition hin.1 hin.2.1
  case origin_inRange =>
    intro s hs o ho
    obtain ⟨r, -, hin, rfl⟩ := hsegments hs
    obtain ⟨o', ho', rfl⟩ := Option.map_eq_some_iff.mp ho
    exact Segment.inRange_shiftedPosition (hin.2.2 o' ho').1 (hin.2.2 o' ho').2
  case source_lt =>
    intro s hs o ho
    obtain ⟨r, hr, -, rfl⟩ := hsegments hs
    obtain ⟨o', ho', rfl⟩ := Option.map_eq_some_iff.mp ho
    exact (hrefers hr).1 o' ho'
  case name_lt =>
    intro s hs
    obtain ⟨r, hr, -, rfl⟩ := hsegments hs
    exact (hrefers hr).2

namespace Represents

/-- Sorting neither drops a segment nor adds one. -/
theorem size_segments (h : Represents m a) :
    a.segments.size = (segmentTexts m.mappings).length := by
  rw [← Array.length_toList, h.segments.perm.length_eq, h.written.length_eq]

/-- The source of a place that a segment comes from is in the table. -/
theorem isSome_source? (h : Represents m a) {s : Segment} (hs : s ∈ a.segments) {o : Place}
    (ho : s.origin = some o) : (a.source? o.source).isSome = true := by
  have hlt := h.source_lt s hs o ho
  rw [← h.sources, Array.length_toList] at hlt
  rw [source?, Array.getElem?_eq_getElem hlt]
  rfl

theorem isSome_name? (h : Represents m a) {s : Segment} (hs : s ∈ a.segments) {name : UInt32}
    (hname : s.name = some name) : (a.name? name).isSome = true := by
  have hlt := h.name_lt s hs name hname
  rw [← h.names, Array.length_toList] at hlt
  rw [name?, Array.getElem?_eq_getElem hlt]
  rfl

end Represents

/-- An accepted map is represented by its atlas, which has one segment for each segment of the
mappings text, and every source and name that a lookup can lead to is in the tables. -/
theorem representation (h : ofSourceMap m = .ok a) :
    Represents m a ∧ a.segments.size = (segmentTexts m.mappings).length ∧
      (∀ g o, a.reverse? g = some o → (a.source? o.source).isSome = true) ∧
      ∀ s ∈ a.segments, ∀ name ∈ s.name, (a.name? name).isSome = true := by
  have hrepresents := represents_ofSourceMap h
  refine ⟨hrepresents, hrepresents.size_segments, ?_, ?_⟩
  · intro g o ho
    obtain ⟨s, hs, horigin, -⟩ := (ordered_ofSourceMap h).exists_of_reverse? ho
    exact hrepresents.isSome_source? hs horigin
  · intro s hs name hname
    exact hrepresents.isSome_name? hs hname

/-- A map with empty segments and an empty line, whose segments are not in order; two begin
together and one has a name. -/
def tangled : SourceMap :=
  ⟨3, some "out", ["a", "b"], ["f"], ",IAAA,,D,AAAAA;;CCCC,ADAD", none, none⟩

/-- The atlas of `tangled`. -/
def tangledAtlas : Atlas where
  sources := #["a", "b"]
  sourceRoot := none
  contents := #[none, none]
  names := #["f"]
  segments := #[⟨⟨1, 3⟩, none, none⟩, ⟨⟨1, 3⟩, some ⟨0, 1, 0⟩, some 0⟩,
    ⟨⟨1, 4⟩, some ⟨0, 1, 0⟩, none⟩, ⟨⟨3, 1⟩, some ⟨1, 2, 1⟩, none⟩,
    ⟨⟨3, 1⟩, some ⟨0, 2, 0⟩, none⟩]
  origins := #[(⟨0, 1, 0⟩, ⟨1, 3⟩), (⟨0, 1, 0⟩, ⟨1, 4⟩), (⟨0, 2, 0⟩, ⟨3, 1⟩), (⟨1, 2, 1⟩, ⟨3, 1⟩)]

theorem ofSourceMap_tangled : ofSourceMap tangled = .ok tangledAtlas := by
  simp only [ofSourceMap, mergeSort_rawLe, mergeSort_originLe]
  rfl

theorem representation_tangled : ofSourceMap tangled = .ok tangledAtlas ∧
    Represents tangled tangledAtlas ∧
    tangledAtlas.segments.size = (segmentTexts tangled.mappings).length ∧
    (tangledAtlas.source? 1).isSome = true ∧ (tangledAtlas.name? 0).isSome = true := by
  obtain ⟨hrepresents, hsize, hsource, hname⟩ := representation ofSourceMap_tangled
  refine ⟨ofSourceMap_tangled, hrepresents, hsize, ?_, ?_⟩
  · exact hsource ⟨3, 9⟩ ⟨1, 2, 1⟩ (by decide)
  · exact hname ⟨⟨1, 3⟩, some ⟨0, 1, 0⟩, some 0⟩ (by simp [tangledAtlas]) 0 rfl

end Atlas

end Provenance

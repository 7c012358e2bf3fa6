import Provenance.Proofs.Atlas.Representation
import Provenance.Proofs.Mappings.Encoding

/-!
# Atlases of written mappings

A source map whose mappings text is written from marks within the limits and the tables is
accepted. Its atlas has exactly these marks as segments, with lines counted from 1, sorted by
generated position.
-/

namespace Provenance

open Provenance.Mappings

namespace Mappings.Mark

/-- Neither the line of the mark nor a line or column in it passes the limit. -/
def InRange (line : Nat) (m : Mark) : Prop :=
  line ≤ Segment.limit.toNat ∧ m.column ≤ Segment.limit ∧
    ∀ o ∈ m.target.origin?, o.line ≤ Segment.limit ∧ o.column ≤ Segment.limit

/-- The segment that a mark on a line stands for, with lines counted from 1. -/
def segment (line : Nat) (m : Mark) : Segment :=
  ⟨⟨UInt32.ofNat (line + 1), m.column⟩,
    m.target.origin?.map fun o => ⟨o.source, o.line + 1, o.column⟩, m.target.name?⟩

theorem inRange_raw {line : Nat} {m : Mark} (h : m.InRange line) :
    (m.raw (UInt32.ofNat line)).InRange := by
  obtain ⟨hline, hcolumn, horigin⟩ := h
  refine ⟨?_, hcolumn, horigin⟩
  rw [raw, UInt32.le_iff_toNat_le, UInt32.toNat_ofNat']
  exact (Nat.mod_le _ _).trans hline

theorem ofShifted_raw (line : Nat) (m : Mark) :
    Segment.ofShifted (m.raw (UInt32.ofNat line)) = m.segment line := by
  rw [segment, UInt32.ofNat_add]
  rfl

end Mappings.Mark

/-- The segments that marks stand for, line by line. -/
def Mappings.segmentsOf (lines : List (List Mark)) : List Segment :=
  lines.zipIdx.flatMap fun p => p.1.map (Mark.segment p.2)

theorem Mappings.map_ofShifted_rawsFrom (lines : List (List Mark)) :
    (rawsFrom 0 lines).map Segment.ofShifted = segmentsOf lines := by
  rw [rawsFrom, segmentsOf, List.map_flatMap]
  congr 1
  funext p
  rw [List.map_map]
  congr 1
  funext m
  exact Mark.ofShifted_raw p.2 m

namespace Atlas

variable {sources names : List String} {lines : List (List Mark)}

/-- Marks within the limits and the tables give an atlas with just these segments, sorted by
generated position; marks of one position keep the order in which they are given. -/
theorem ofSourceMap_encode (file root : Option String)
    (contents : Option (List (Option String)))
    (hlines : ∀ p ∈ lines.zipIdx, ∀ m ∈ p.1,
      m.InRange p.2 ∧ m.Refers ⟨sources.length, names.length⟩) :
    ∃ a, ofSourceMap ⟨3, file, sources, names, encode lines, root, contents⟩ = .ok a ∧
      StablySorted Segment.generated (segmentsOf lines) a.segments.toList := by
  set m : SourceMap := ⟨3, file, sources, names, encode lines, root, contents⟩
  have hraw : m.raw = .ok (rawsFrom 0 lines) := by
    apply decode_encode
    intro marks hmarks mark hmark
    obtain ⟨i, hi, rfl⟩ := List.mem_iff_getElem.mp hmarks
    exact (hlines (lines[i], i) (List.mem_zipIdx_iff_getElem?.mpr
      (List.getElem?_eq_getElem hi)) mark hmark).2
  have hinRange : ∀ r ∈ rawsFrom 0 lines, r.InRange := by
    intro r hr
    obtain ⟨p, hp, hr⟩ := List.mem_flatMap.mp hr
    obtain ⟨mark, hmark, rfl⟩ := List.mem_map.mp hr
    exact Mark.inRange_raw (hlines p hp mark hmark).1
  have hok : ofSourceMap m = .ok (ofWritten m m.written) :=
    ofSourceMap_eq_ok_iff.mpr ⟨rfl, ⟨_, hraw, hinRange⟩, rfl⟩
  have hwritten : m.written = segmentsOf lines := by
    rw [SourceMap.written, hraw]
    exact map_ofShifted_rawsFrom lines
  refine ⟨_, hok, ?_⟩
  rw [← hwritten]
  exact stablySorted_segments hok

/-- Marks of every shape, an empty line, columns out of order and the greatest line and column. -/
def sample : List (List Mark) :=
  [[⟨25, .mapped ⟨0, 0, 10⟩⟩], [], [⟨2147483647, .named ⟨1, 2147483647, 3⟩ 1⟩, ⟨0, .unmapped⟩,
    ⟨4, .mapped ⟨0, 5, 0⟩⟩, ⟨0, .named ⟨1, 0, 2147483647⟩ 0⟩]]

theorem ofSourceMap_encode_sample :
    (∀ p ∈ sample.zipIdx, ∀ m ∈ p.1,
      m.InRange p.2 ∧ m.Refers ⟨["a", "b"].length, ["f", "g"].length⟩) ∧
    ∃ a, ofSourceMap ⟨3, some "out", ["a", "b"], ["f", "g"], encode sample, none, none⟩ = .ok a ∧
      StablySorted Segment.generated (segmentsOf sample) a.segments.toList := by
  have hlines : ∀ p ∈ sample.zipIdx, ∀ m ∈ p.1,
      m.InRange p.2 ∧ m.Refers ⟨["a", "b"].length, ["f", "g"].length⟩ := by
    simp [sample, Mark.InRange, Mark.Refers, Target.origin?, Target.name?, Segment.limit]
  exact ⟨hlines, ofSourceMap_encode (some "out") none none hlines⟩

end Atlas

end Provenance

import Provenance.Focus
import Provenance.Proofs.Atlas.Representation
import Provenance.Proofs.Run.Coalescing

/-!
# What a highlight covers

The highlight of a cursor is made of the places that the columns of a whole generated line come
from. Where the segments of the atlas begin apart, the place that was found for the cursor is one of
them, so one of the runs covers it, and none of the runs is empty.

## Implementation notes

A segment that begins where the one of the cursor begins may answer for that position in its stead.
This is why the segments have to begin apart. The length of the generated line is the one that the
layout knows, in UTF-16 units, and a segment past the end of its line is not looked up at all.
-/

namespace Provenance

namespace Atlas

variable {m : SourceMap} {a : Atlas} {line length : UInt32}

/-- The places of a line are those of the positions on it. -/
theorem mem_lineOrigins {place : Option Place} :
    place ∈ a.lineOrigins line length ↔ ∃ column < length, a.reverse? ⟨line, column⟩ = place := by
  simp only [lineOrigins, List.mem_map, List.mem_range]
  constructor
  · rintro ⟨column, hlt, rfl⟩
    refine ⟨UInt32.ofNat column, ?_, rfl⟩
    rw [UInt32.lt_iff_toNat_lt, UInt32.toNat_ofNat_of_lt' (hlt.trans length.toNat_lt)]
    exact hlt
  · rintro ⟨column, hlt, rfl⟩
    refine ⟨column.toNat, UInt32.lt_iff_toNat_lt.mp hlt, ?_⟩
    rw [UInt32.ofNat_toNat]

/-- What a position comes from is in range. -/
theorem inRange_of_reverse? (h : ofSourceMap m = .ok a) {g : Position} {place : Place}
    (hplace : a.reverse? g = some place) : place.position.InRange := by
  obtain ⟨s, hs, horigin, -⟩ := (ordered_ofSourceMap h).exists_of_reverse? hplace
  exact (represents_ofSourceMap h).origin_inRange s hs place horigin

/-- The places of a line lie on a line that counts from 1 and before the last column. -/
theorem inRange_of_mem_lineOrigins (h : ofSourceMap m = .ok a) {place : Place}
    (hplace : some place ∈ a.lineOrigins line length) :
    1 ≤ place.line ∧ place.column ≠ Run.lastColumn := by
  obtain ⟨column, -, hreverse⟩ := mem_lineOrigins.mp hplace
  have hin := inRange_of_reverse? h hreverse
  constructor
  · exact UInt32.le_iff_toNat_le.mpr hin.one_le_line
  · intro hlast
    have htop : place.position.column.toNat = 2 ^ 32 - 1 := congrArg UInt32.toNat hlast
    have hle := hin.column_le
    omega

/-- The runs of a line cover something each, and together all that its positions come from. -/
theorem runs_lineOrigins (h : ofSourceMap m = .ok a) (line length : UInt32) :
    (∀ r ∈ Run.coalesce (a.lineOrigins line length), 1 ≤ r.line ∧ r.first < r.stop) ∧
      ∀ column < length, ∀ place, a.reverse? ⟨line, column⟩ = some place →
        ∃ r ∈ Run.coalesce (a.lineOrigins line length), r.covers place.position = true := by
  have hcolumns : ∀ place, some place ∈ a.lineOrigins line length →
      place.column ≠ Run.lastColumn := fun place hplace => (inRange_of_mem_lineOrigins h hplace).2
  constructor
  · intro r hr
    have hlt := Run.first_lt_stop hcolumns r hr
    refine ⟨?_, hlt⟩
    -- The run covers its first position, which is that of a place on the line of the run.
    obtain ⟨-, place, hplace, hposition⟩ := Run.exists_covers_iff.mp
      ⟨r, hr, Run.covers_firstPosition hlt⟩
    have hline := (inRange_of_mem_lineOrigins h hplace).1
    rwa [Place.line, hposition] at hline
  · intro column hlt place hreverse
    have hplace := mem_lineOrigins.mpr ⟨column, hlt, hreverse⟩
    exact Run.exists_covers_iff.mpr ⟨hcolumns place hplace, place, hplace, rfl⟩

end Atlas

namespace Focus

/-- The highlight of a mapped cursor is the line where the cursor leads to. -/
theorem highlightAt?_eq_some {a : Atlas} {layout : LineLayout} {sourceName : String}
    {source length : UInt32} {cursor g : Position} (hsource : a.resolve? sourceName = some source)
    (hg : a.forward? source cursor = some g) (hlength : layout.lineLength? g.line = some length) :
    highlightAt? a layout sourceName cursor =
      some ⟨g.line, Run.coalesce (a.lineOrigins g.line length)⟩ := by
  simp [highlightAt?, hsource, hg, hlength]

/-- On an atlas whose segments begin apart, a cursor that leads to a position within its generated
line is highlighted together with the place that it was found for: the highlight is on that line, no
run is empty, and one of them covers the greatest mapped position up to the cursor. -/
theorem highlight_covers_mapped {m : SourceMap} {a : Atlas} (h : Atlas.ofSourceMap m = .ok a)
    (hdistinct : (a.segments.toList.map Segment.generated).Nodup) {f : Focus} {text : String}
    {cursor g : Position} {source length : UInt32} (hatlas : f.atlas = some a)
    (hlayout : f.layout = .ofText text) (hcursor : f.cursor = some cursor)
    (hsource : a.resolve? f.sourceName = some source) (hg : a.forward? source cursor = some g)
    (hlength : (LineLayout.ofText text).lineLength? g.line = some length)
    (hcolumn : g.column < length) :
    ∃ highlight, f.refresh.highlight = some highlight ∧ highlight.line = g.line ∧
      (∀ r ∈ highlight.runs, 1 ≤ r.line ∧ r.first < r.stop) ∧
      ∃ p, IsGreatest {p | p ∈ a.mapped source ∧ p ≤ cursor} p ∧
        ∃ r ∈ highlight.runs, r.covers p = true := by
  have hord := Atlas.ordered_ofSourceMap h
  obtain ⟨p, hp, hleast⟩ := hord.exists_of_forward? hg
  have hstart : g ∈ a.starts := by
    obtain ⟨s, hs, -, hgen⟩ := hleast.1
    exact ⟨s, hs, hgen⟩
  have hreverse : a.reverse? g = some ⟨source, p⟩ :=
    hord.reverse?_of_single hleast.1 (Atlas.length_startingAt_of_nodup hdistinct hstart)
  obtain ⟨hruns, hcovered⟩ := Atlas.runs_lineOrigins h g.line length
  refine ⟨⟨g.line, Run.coalesce (a.lineOrigins g.line length)⟩, ?_, rfl, hruns, p, hp, ?_⟩
  · rw [refresh, hatlas, hcursor, hlayout]
    exact highlightAt?_eq_some hsource hg hlength
  · exact hcovered g.column hcolumn ⟨source, p⟩ hreverse

/-- A map of two sources; the first letter of the generated text is two units wide. -/
def wideLetter : SourceMap :=
  ⟨3, none, ["lib/Other.tsx", "src/Demo.tsx"], [], "ACAI,EAAC,C;ADAL,CCEA", none, none⟩

/-- The atlas of `wideLetter`. -/
def wideLetterAtlas : Atlas where
  sources := #["lib/Other.tsx", "src/Demo.tsx"]
  sourceRoot := none
  contents := #[none, none]
  names := #[]
  segments := #[⟨⟨1, 0⟩, some ⟨1, 1, 4⟩, none⟩, ⟨⟨1, 2⟩, some ⟨1, 1, 5⟩, none⟩,
    ⟨⟨1, 3⟩, none, none⟩, ⟨⟨2, 0⟩, some ⟨0, 1, 0⟩, none⟩, ⟨⟨2, 1⟩, some ⟨1, 3, 0⟩, none⟩]
  origins := #[(⟨0, 1, 0⟩, ⟨2, 0⟩), (⟨1, 1, 4⟩, ⟨1, 0⟩), (⟨1, 1, 5⟩, ⟨1, 2⟩), (⟨1, 3, 0⟩, ⟨2, 1⟩)]

/-- A focus that was told the text of `wideLetter` and a cursor behind the wide letter. -/
def onWideLetter : Focus :=
  ((ofName "Demo.tsx").install (some wideLetterAtlas) "😀ab\ncd").moveTo ⟨1, 9⟩

theorem ofSourceMap_wideLetter : Atlas.ofSourceMap wideLetter = .ok wideLetterAtlas := by
  simp only [Atlas.ofSourceMap, Atlas.mergeSort_rawLe, Atlas.mergeSort_originLe]
  rfl

theorem highlight_covers_mapped_wideLetter : Atlas.ofSourceMap wideLetter = .ok wideLetterAtlas ∧
    wideLetterAtlas.resolve? "Demo.tsx" = some 1 ∧
    wideLetterAtlas.forward? 1 ⟨1, 9⟩ = some ⟨1, 2⟩ ∧
    (LineLayout.ofText "😀ab\ncd").lineLength? 1 = some 4 ∧
    ∃ highlight, onWideLetter.refresh.highlight = some highlight ∧ highlight.line = 1 ∧
      (∀ r ∈ highlight.runs, 1 ≤ r.line ∧ r.first < r.stop) ∧
      ∃ p, IsGreatest {p | p ∈ wideLetterAtlas.mapped 1 ∧ p ≤ ⟨1, 9⟩} p ∧
        ∃ r ∈ highlight.runs, r.covers p = true := by
  have hsource : wideLetterAtlas.resolve? "Demo.tsx" = some 1 := by decide
  have hg : wideLetterAtlas.forward? 1 ⟨1, 9⟩ = some ⟨1, 2⟩ := by decide
  have hlength : (LineLayout.ofText "😀ab\ncd").lineLength? 1 = some 4 := by decide
  refine ⟨ofSourceMap_wideLetter, hsource, hg, hlength, ?_⟩
  exact highlight_covers_mapped (f := onWideLetter) ofSourceMap_wideLetter (by decide) rfl rfl rfl
    hsource hg hlength (by decide)

end Focus

end Provenance

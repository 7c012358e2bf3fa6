import Provenance.Proofs.Atlas.Representation

/-!
# Lookups from a generated position

A lookup from a generated position finds something exactly if a segment begins on the same line at
or before the column. Of the segments that begin at the greatest such column, the one written first
answers, and the position comes from where that one comes from. So a position over an unmapped
segment comes from nowhere, even where another segment begins with it that is mapped.

## Implementation notes

Which segment is the first one is told from the order of writing. The table of the atlas holds the
segments in another order, but sorting has kept those of one position as they were.
-/

namespace Provenance

/-- The segment written first of those that begin at a generated position. -/
def SourceMap.firstAt? (m : SourceMap) (g : Position) : Option Segment :=
  m.written.find? fun s => decide (s.generated = g)

namespace Atlas

variable {m : SourceMap} {a : Atlas} {line column start : UInt32}

/-- The columns up to the given one at which segments begin on a generated line. -/
def startColumns (a : Atlas) (line column : UInt32) : Set UInt32 :=
  {c | c ≤ column ∧ (⟨line, c⟩ : Position) ∈ a.starts}

theorem nonempty_startColumns_iff :
    (a.startColumns line column).Nonempty ↔
      ∃ s ∈ a.segments, s.generated.line = line ∧ s.generated.column ≤ column := by
  constructor
  · rintro ⟨c, hc, s, hs, hgen⟩
    refine ⟨s, hs, ?_, ?_⟩
    · rw [hgen]
    · rw [hgen]
      exact hc
  · rintro ⟨s, hs, rfl, hc⟩
    exact ⟨s.generated.column, hc, s, hs, rfl⟩

/-- A line has only one greatest column at which a segment begins. -/
theorem eq_of_isGreatest_startColumns {start' : UInt32}
    (h : IsGreatest (a.startColumns line column) start)
    (h' : IsGreatest (a.startColumns line column) start') : start = start' :=
  UInt32.le_antisymm (h'.2 h.1) (h.2 h'.1)

/-- The first segment of the table at a position is the one written first there. -/
theorem head?_startingAt (h : ofSourceMap m = .ok a) (g : Position) :
    (a.startingAt g).head? = m.firstAt? g := by
  rw [startingAt, filter_segments h, List.head?_filter, SourceMap.firstAt?]

/-- What a lookup on a line gives: the segment written first at the greatest column up to the given
one, or nothing where none begins. -/
theorem segment?_startColumns (h : ofSourceMap m = .ok a) (line column : UInt32) :
    (∃ start s, IsGreatest (a.startColumns line column) start ∧
        m.firstAt? ⟨line, start⟩ = some s ∧ a.segment? ⟨line, column⟩ = some s) ∨
      a.startColumns line column = ∅ ∧ a.segment? ⟨line, column⟩ = none := by
  rcases (ordered_ofSourceMap h).segment?_spec ⟨line, column⟩ with
    ⟨s, ⟨⟨hstart, hline, hle⟩, hmax⟩, hhead, hs⟩ | ⟨hbeyond, hnone⟩
  · left
    obtain rfl : s.generated.line = line := hline
    refine ⟨s.generated.column, s, ⟨⟨?_, hstart⟩, ?_⟩, ?_, hs⟩
    · exact Position.mk_le_mk.mp hle
    · rintro c ⟨hc, hstart'⟩
      apply Position.mk_le_mk.mp
      exact hmax ⟨hstart', rfl, Position.mk_le_mk.mpr hc⟩
    · rw [← head?_startingAt h, hhead]
  · right
    refine ⟨?_, hnone⟩
    rw [Set.eq_empty_iff_forall_notMem]
    rintro c ⟨hc, hstart⟩
    have hlt := hbeyond ⟨line, c⟩ hstart rfl
    exact absurd (Position.mk_le_mk.mpr hc) (not_le_of_gt hlt)

theorem isSome_segment?_iff (h : ofSourceMap m = .ok a) :
    (a.segment? ⟨line, column⟩).isSome = true ↔ (a.startColumns line column).Nonempty := by
  rcases segment?_startColumns h line column with ⟨start, s, hstart, -, hs⟩ | ⟨hempty, hnone⟩
  · rw [hs]
    exact iff_of_true rfl ⟨start, hstart.1⟩
  · rw [hnone, hempty]
    exact iff_of_false nofun Set.not_nonempty_empty

theorem segment?_eq_some_iff (h : ofSourceMap m = .ok a) {s : Segment} :
    a.segment? ⟨line, column⟩ = some s ↔
      ∃ start, IsGreatest (a.startColumns line column) start ∧
        m.firstAt? ⟨line, start⟩ = some s := by
  rcases segment?_startColumns h line column with
    ⟨start, t, hstart, hfirst, ht⟩ | ⟨hempty, hnone⟩
  · rw [ht]
    constructor
    · rintro ⟨⟩
      exact ⟨start, hstart, hfirst⟩
    · rintro ⟨start', hstart', hs⟩
      rw [eq_of_isGreatest_startColumns hstart' hstart, hfirst] at hs
      exact hs
  · rw [hnone, hempty]
    constructor
    · nofun
    · rintro ⟨start, hstart, -⟩
      exact absurd hstart.1 (Set.notMem_empty start)

/-- A lookup from a generated position finds something exactly if a segment begins on that line at
or before the column. It finds the segment written first at the greatest column where one begins,
and the position comes from where this segment comes from: from nowhere if it is unmapped. -/
theorem segment?_floor (h : ofSourceMap m = .ok a) (line column : UInt32) :
    ((a.segment? ⟨line, column⟩).isSome = true ↔
      ∃ s ∈ a.segments, s.generated.line = line ∧ s.generated.column ≤ column) ∧
    (∀ s, a.segment? ⟨line, column⟩ = some s ↔
      ∃ start, IsGreatest (a.startColumns line column) start ∧
        m.firstAt? ⟨line, start⟩ = some s) ∧
    (∀ place, a.reverse? ⟨line, column⟩ = some place ↔
      ∃ start s, IsGreatest (a.startColumns line column) start ∧
        m.firstAt? ⟨line, start⟩ = some s ∧ s.origin = some place) ∧
    ∀ start s, IsGreatest (a.startColumns line column) start →
      m.firstAt? ⟨line, start⟩ = some s → s.origin = none → a.reverse? ⟨line, column⟩ = none := by
  refine ⟨?_, fun s => segment?_eq_some_iff h, ?_, ?_⟩
  · rw [isSome_segment?_iff h, nonempty_startColumns_iff]
  · intro place
    rw [reverse?, Option.bind_eq_some_iff]
    constructor
    · rintro ⟨s, hs, horigin⟩
      obtain ⟨start, hstart, hfirst⟩ := (segment?_eq_some_iff h).mp hs
      exact ⟨start, s, hstart, hfirst, horigin⟩
    · rintro ⟨start, s, hstart, hfirst, horigin⟩
      exact ⟨s, (segment?_eq_some_iff h).mpr ⟨start, hstart, hfirst⟩, horigin⟩
  · intro start s hstart hfirst hunmapped
    have hs := (segment?_eq_some_iff h).mpr ⟨start, hstart, hfirst⟩
    rw [reverse?, hs, Option.bind_some, hunmapped]

theorem segment?_floor_tangled : ofSourceMap tangled = .ok tangledAtlas ∧
    (tangledAtlas.segment? ⟨1, 3⟩).isSome = true ∧
    tangledAtlas.segment? ⟨1, 3⟩ = some ⟨⟨1, 3⟩, none, none⟩ ∧
    ⟨⟨1, 3⟩, some ⟨0, 1, 0⟩, some 0⟩ ∈ tangledAtlas.segments ∧
    tangledAtlas.reverse? ⟨1, 3⟩ = none ∧
    tangledAtlas.reverse? ⟨3, 9⟩ = some ⟨1, 2, 1⟩ ∧
    tangledAtlas.segment? ⟨2, 7⟩ = none := by
  have hthird : IsGreatest (tangledAtlas.startColumns 1 3) 3 :=
    ⟨⟨by decide, ⟨⟨1, 3⟩, none, none⟩, by simp [tangledAtlas], rfl⟩, fun c hc => hc.1⟩
  have hlast : IsGreatest (tangledAtlas.startColumns 3 9) 1 := by
    refine ⟨⟨by decide, ⟨⟨3, 1⟩, some ⟨1, 2, 1⟩, none⟩, by simp [tangledAtlas], rfl⟩, ?_⟩
    rintro c ⟨-, s, hs, hgen⟩
    simp only [tangledAtlas, List.mem_toArray, List.mem_cons, List.not_mem_nil, or_false] at hs
    rcases hs with rfl | rfl | rfl | rfl | rfl <;> simp_all
  obtain ⟨hsome, hfound, -, hunmapped⟩ := segment?_floor ofSourceMap_tangled 1 3
  have hfirst : tangled.firstAt? ⟨1, 3⟩ = some ⟨⟨1, 3⟩, none, none⟩ := rfl
  refine ⟨ofSourceMap_tangled, ?_, (hfound _).mpr ⟨3, hthird, hfirst⟩, by simp [tangledAtlas],
    hunmapped 3 _ hthird hfirst rfl, ?_, ?_⟩
  · exact hsome.mpr ⟨⟨⟨1, 3⟩, none, none⟩, by simp [tangledAtlas], rfl, by decide⟩
  · exact ((segment?_floor ofSourceMap_tangled 3 9).2.2.1 ⟨1, 2, 1⟩).mpr
      ⟨1, ⟨⟨3, 1⟩, some ⟨1, 2, 1⟩, none⟩, hlast, rfl, rfl⟩
  · rw [← Option.not_isSome_iff_eq_none, (segment?_floor ofSourceMap_tangled 2 7).1]
    simp [tangledAtlas]

end Atlas

end Provenance

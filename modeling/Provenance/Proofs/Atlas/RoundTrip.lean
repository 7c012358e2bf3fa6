import Mathlib.Data.List.Nodup
import Mathlib.Order.Bounds.Basic
import Provenance.Proofs.Atlas.Lookup

/-!
# Round trips between the two sides of an atlas

Going from a generated position to its source place and on to where that place is generated
never leads past the start. The other way round, a generated position found from a source
position leads back to the place that was found, provided the segment that answers for it is the
only one there: the segment written first answers for all that begin at one position, and it may
be of another source or unmapped.
-/

namespace Provenance.Atlas

variable {a : Atlas}

/-- Where no two segments begin together, each begins alone. -/
theorem length_startingAt_of_nodup (hdistinct : (a.segments.toList.map Segment.generated).Nodup)
    {g : Position} (hg : g ∈ a.starts) : (a.startingAt g).length = 1 := by
  obtain ⟨s, hs, hgen⟩ := hg
  have hcount := List.count_eq_one_of_mem hdistinct
    (List.mem_map.mpr ⟨s, Array.mem_toList_iff.mpr hs, hgen⟩)
  rwa [List.count_eq_countP, List.countP_map, List.countP_eq_length_filter] at hcount

namespace Ordered

theorem exists_of_forward? (h : a.Ordered) {source : UInt32} {position g : Position}
    (hg : a.forward? source position = some g) :
    ∃ p, IsGreatest {p | p ∈ a.mapped source ∧ p ≤ position} p ∧
      IsLeast (a.landings ⟨source, p⟩) g := by
  rcases h.forward?_spec source position with ⟨p, g', hp, hleast, hg'⟩ | ⟨-, hnone⟩
  · obtain rfl : g' = g := Option.some.inj (hg'.symm.trans hg)
    exact ⟨p, hp, hleast⟩
  · rw [hnone] at hg
    cases hg

/-- The place a generated position comes from is that of a segment which begins up to there. -/
theorem exists_of_reverse? (h : a.Ordered) {g : Position} {o : Place}
    (ho : a.reverse? g = some o) :
    ∃ s ∈ a.segments, s.origin = some o ∧ s.generated ≤ g := by
  obtain ⟨s, hs, horigin⟩ := Option.bind_eq_some_iff.mp ho
  rcases h.segment?_spec g with ⟨s', hgreatest, hhead, hs'⟩ | ⟨-, hnone⟩
  · obtain rfl : s' = s := Option.some.inj (hs'.symm.trans hs)
    exact ⟨s', (mem_startingAt.mp (List.mem_of_mem_head? hhead)).1, horigin, hgreatest.1.2.2⟩
  · rw [hnone] at hs
    cases hs

/-- Where segments begin, the one written first answers. -/
theorem segment?_of_mem_starts (h : a.Ordered) {g : Position} (hg : g ∈ a.starts) :
    a.segment? g = (a.startingAt g).head? := by
  rcases h.segment?_spec g with ⟨s, hgreatest, hhead, hs⟩ | ⟨hnone, -⟩
  · have heq : s.generated = g :=
      le_antisymm hgreatest.1.2.2 (hgreatest.2 ⟨hg, rfl, le_rfl⟩)
    rw [hs, ← heq, hhead]
  · exact absurd (hnone g hg rfl) (lt_irrefl g)

/-- From a generated position back to the generated side one never gets past the start. -/
theorem exists_forward?_of_reverse? (h : a.Ordered) {g : Position} {o : Place}
    (ho : a.reverse? g = some o) :
    ∃ g', a.forward? o.source o.position = some g' ∧ g' ≤ g ∧ g' ∈ a.landings o := by
  obtain ⟨s, hs, horigin, hle⟩ := h.exists_of_reverse? ho
  have hmapped : o.position ∈ a.mapped o.source := ⟨s, hs, horigin⟩
  rcases h.forward?_spec o.source o.position with ⟨p, g', hp, hleast, hg'⟩ | ⟨hnone, -⟩
  · obtain rfl : p = o.position := le_antisymm hp.1.2 (hp.2 ⟨hmapped, le_rfl⟩)
    exact ⟨g', hg', (hleast.2 ⟨s, hs, horigin, rfl⟩).trans hle, hleast.1⟩
  · exact absurd (hnone o.position hmapped) (lt_irrefl _)

/-- A segment that is alone at its position answers for it. -/
theorem reverse?_of_single (h : a.Ordered) {g : Position} {place : Place}
    (hg : g ∈ a.landings place) (hsingle : (a.startingAt g).length = 1) :
    a.reverse? g = some place := by
  obtain ⟨s, hs, horigin, hgen⟩ := hg
  obtain ⟨s', hlist⟩ := List.length_eq_one_iff.mp hsingle
  have hmem : s ∈ a.startingAt g := mem_startingAt.mpr ⟨hs, hgen⟩
  rw [hlist, List.mem_singleton] at hmem
  rw [reverse?, h.segment?_of_mem_starts ⟨s, hs, hgen⟩, hlist, List.head?_cons,
    Option.bind_some, ← hmem, horigin]

end Ordered

/-- Lookups in the two directions agree. A place found from a generated position is generated at
or before it. A generated position found from a source position leads back to the greatest mapped
position up to it, if one segment alone begins there. So on an atlas whose segments begin apart,
going back and forth once changes nothing. -/
theorem lookups_agree {m : SourceMap} {a : Atlas} (h : ofSourceMap m = .ok a) :
    (∀ g o, a.reverse? g = some o →
      ∃ g', a.forward? o.source o.position = some g' ∧ g' ≤ g) ∧
    (∀ source position g, a.forward? source position = some g →
      (a.startingAt g).length = 1 →
      ∃ p, a.reverse? g = some ⟨source, p⟩ ∧
        IsGreatest {p | p ∈ a.mapped source ∧ p ≤ position} p) ∧
    ((a.segments.toList.map Segment.generated).Nodup →
      ∀ g o, a.reverse? g = some o →
        ((a.forward? o.source o.position).bind a.reverse?) = some o) := by
  have hord := ordered_ofSourceMap h
  refine ⟨?_, ?_, ?_⟩
  · intro g o ho
    obtain ⟨g', hg', hle, -⟩ := hord.exists_forward?_of_reverse? ho
    exact ⟨g', hg', hle⟩
  · intro source position g hg hsingle
    obtain ⟨p, hp, hleast⟩ := hord.exists_of_forward? hg
    exact ⟨p, hord.reverse?_of_single hleast.1 hsingle, hp⟩
  · intro hdistinct g o ho
    obtain ⟨g', hg', -, hland⟩ := hord.exists_forward?_of_reverse? ho
    have hstart : g' ∈ a.starts := by
      obtain ⟨s, hs, -, hgen⟩ := hland
      exact ⟨s, hs, hgen⟩
    have hsingle := length_startingAt_of_nodup hdistinct hstart
    rw [hg', Option.bind_some]
    exact hord.reverse?_of_single hland hsingle

/-- A map of two sources with an unmapped segment, an empty line and a place generated twice. -/
def twoSources : SourceMap :=
  ⟨3, none, ["a", "b"], [], "AAAA,ICEE,E;;EDFF,GACC", none, none⟩

/-- The atlas of `twoSources`. -/
def twoSourcesAtlas : Atlas where
  sources := #["a", "b"]
  sourceRoot := none
  contents := #[none, none]
  names := #[]
  segments := #[⟨⟨1, 0⟩, some ⟨0, 1, 0⟩, none⟩, ⟨⟨1, 4⟩, some ⟨1, 3, 2⟩, none⟩,
    ⟨⟨1, 6⟩, none, none⟩, ⟨⟨3, 2⟩, some ⟨0, 1, 0⟩, none⟩, ⟨⟨3, 5⟩, some ⟨0, 2, 1⟩, none⟩]
  origins := #[(⟨0, 1, 0⟩, ⟨1, 0⟩), (⟨0, 1, 0⟩, ⟨3, 2⟩), (⟨0, 2, 1⟩, ⟨3, 5⟩), (⟨1, 3, 2⟩, ⟨1, 4⟩)]

theorem ofSourceMap_twoSources : ofSourceMap twoSources = .ok twoSourcesAtlas := by
  simp only [ofSourceMap, mergeSort_rawLe, mergeSort_originLe]
  rfl

theorem lookups_agree_twoSources : ofSourceMap twoSources = .ok twoSourcesAtlas ∧
    (∃ g', twoSourcesAtlas.forward? 0 ⟨1, 0⟩ = some g' ∧ g' ≤ ⟨3, 4⟩) ∧
    (∃ p, twoSourcesAtlas.reverse? ⟨1, 4⟩ = some ⟨1, p⟩ ∧
      IsGreatest {p | p ∈ twoSourcesAtlas.mapped 1 ∧ p ≤ ⟨9, 0⟩} p) ∧
    ((twoSourcesAtlas.forward? 0 ⟨1, 0⟩).bind twoSourcesAtlas.reverse?) = some ⟨0, 1, 0⟩ := by
  obtain ⟨hback, hthere, hround⟩ := lookups_agree ofSourceMap_twoSources
  refine ⟨ofSourceMap_twoSources, hback ⟨3, 4⟩ ⟨0, 1, 0⟩ (by decide), ?_, ?_⟩
  · exact hthere 1 ⟨9, 0⟩ ⟨1, 4⟩ (by decide) (by decide)
  · exact hround (by decide) ⟨3, 4⟩ ⟨0, 1, 0⟩ (by decide)

/-! ## Positions where several segments begin -/

/-- The generated position comes from a position of the source up to the given one. -/
def ReturnsTo (a : Atlas) (g : Position) (source : UInt32) (position : Position) : Prop :=
  ∃ o, a.reverse? g = some o ∧ o.source = source ∧ o.position ≤ position

/-- An unmapped segment begins where one from the first position of a source begins. -/
def unmappedTwin : SourceMap := ⟨3, none, ["a"], [], "A,AAAA", none, none⟩

/-- The atlas of `unmappedTwin`. -/
def unmappedTwinAtlas : Atlas where
  sources := #["a"]
  sourceRoot := none
  contents := #[none]
  names := #[]
  segments := #[⟨⟨1, 0⟩, none, none⟩, ⟨⟨1, 0⟩, some ⟨0, 1, 0⟩, none⟩]
  origins := #[(⟨0, 1, 0⟩, ⟨1, 0⟩)]

theorem ofSourceMap_unmappedTwin : ofSourceMap unmappedTwin = .ok unmappedTwinAtlas := by
  simp only [ofSourceMap, mergeSort_rawLe, mergeSort_originLe]
  rfl

/-- A generated position found from a source need not lead back to it. -/
theorem not_forall_returnsTo :
    ¬ ∀ (m : SourceMap) (a : Atlas), ofSourceMap m = .ok a →
      ∀ source position g, a.forward? source position = some g →
        a.ReturnsTo g source position := by
  intro hall
  obtain ⟨o, ho, -⟩ := hall _ _ ofSourceMap_unmappedTwin 0 ⟨1, 0⟩ ⟨1, 0⟩ (by decide)
  have hnone : unmappedTwinAtlas.reverse? ⟨1, 0⟩ = none := by decide
  rw [hnone] at ho
  cases ho

/-- A generated position found from a source position comes from where the segment written first
there comes from. So it leads back to the source exactly if that segment does, although some
segment that begins there always does; in particular it leads back if only one begins there. -/
theorem returnsTo_iff_first {m : SourceMap} {a : Atlas} (h : ofSourceMap m = .ok a)
    {source : UInt32} {position g : Position} (hg : a.forward? source position = some g) :
    (∃ s ∈ m.written, s.generated = g ∧ ∃ p ≤ position, s.origin = some ⟨source, p⟩) ∧
    (∃ first, m.written.find? (fun s => decide (s.generated = g)) = some first ∧
      a.reverse? g = first.origin ∧
      (a.ReturnsTo g source position ↔ ∃ p ≤ position, first.origin = some ⟨source, p⟩)) ∧
    ((a.startingAt g).length = 1 → a.ReturnsTo g source position) := by
  have hord := ordered_ofSourceMap h
  obtain ⟨p, hp, hleast⟩ := hord.exists_of_forward? hg
  obtain ⟨s, hs, horigin, hgen⟩ := hleast.1
  have hwritten : s ∈ m.written.filter fun s => decide (s.generated = g) := by
    rw [← filter_segments h]
    exact mem_startingAt.mpr ⟨hs, hgen⟩
  have hfirst : a.segment? g = m.written.find? fun s => decide (s.generated = g) := by
    rw [hord.segment?_of_mem_starts ⟨s, hs, hgen⟩, startingAt, filter_segments h,
      List.head?_filter]
  obtain ⟨first, hfind⟩ : ∃ first, m.written.find? (fun s => decide (s.generated = g)) =
      some first := by
    rw [← Option.isSome_iff_exists, List.find?_isSome]
    exact ⟨s, (List.mem_filter.mp hwritten).1, decide_eq_true hgen⟩
  have hreverse : a.reverse? g = first.origin := by
    rw [reverse?, hfirst, hfind, Option.bind_some]
  refine ⟨⟨s, (List.mem_filter.mp hwritten).1, hgen, p, hp.1.2, horigin⟩,
    ⟨first, hfind, hreverse, ?_⟩, ?_⟩
  · rw [ReturnsTo, hreverse]
    constructor
    · rintro ⟨o, ho, rfl, hle⟩
      exact ⟨o.position, hle, ho⟩
    · rintro ⟨q, hle, ho⟩
      exact ⟨⟨source, q⟩, ho, rfl, hle⟩
  · intro hsingle
    exact ⟨⟨source, p⟩, hord.reverse?_of_single hleast.1 hsingle, rfl, hp.1.2⟩

theorem returnsTo_iff_first_unmappedTwin :
    ofSourceMap unmappedTwin = .ok unmappedTwinAtlas ∧
    unmappedTwinAtlas.forward? 0 ⟨1, 0⟩ = some ⟨1, 0⟩ ∧
    (∃ first, unmappedTwin.written.find? (fun s => decide (s.generated = ⟨1, 0⟩)) = some first ∧
      unmappedTwinAtlas.reverse? ⟨1, 0⟩ = first.origin ∧
      (unmappedTwinAtlas.ReturnsTo ⟨1, 0⟩ 0 ⟨1, 0⟩ ↔
        ∃ p ≤ (⟨1, 0⟩ : Position), first.origin = some ⟨0, p⟩)) := by
  have hg : unmappedTwinAtlas.forward? 0 ⟨1, 0⟩ = some ⟨1, 0⟩ := by decide
  exact ⟨ofSourceMap_unmappedTwin, hg, (returnsTo_iff_first ofSourceMap_unmappedTwin hg).2.1⟩

end Provenance.Atlas

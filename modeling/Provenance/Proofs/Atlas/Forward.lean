import Provenance.Proofs.Atlas.RoundTrip

/-!
# Lookups from a source position

A lookup from a source position finds something exactly if a segment comes from that source at or
before the position. What it finds is the first place where the greatest such position is generated,
and this depends on nothing but the segments of the source.
-/

namespace Provenance.Atlas

variable {a b : Atlas} {source : UInt32} {position g : Position}

/-- A position of a source is mapped if it is generated somewhere. -/
theorem mem_mapped_iff_nonempty {p : Position} :
    p ∈ a.mapped source ↔ (a.landings ⟨source, p⟩).Nonempty := by
  constructor
  · rintro ⟨s, hs, horigin⟩
    exact ⟨s.generated, s, hs, horigin, rfl⟩
  · rintro ⟨g, s, hs, horigin, -⟩
    exact ⟨s, hs, horigin⟩

namespace Ordered

theorem isSome_forward?_iff (h : a.Ordered) :
    (a.forward? source position).isSome = true ↔ ∃ p ∈ a.mapped source, p ≤ position := by
  rcases h.forward?_spec source position with ⟨p, g, hp, -, hg⟩ | ⟨hbeyond, hnone⟩
  · rw [hg]
    exact iff_of_true rfl ⟨p, hp.1.1, hp.1.2⟩
  · rw [hnone]
    apply iff_of_false nofun
    rintro ⟨p, hp, hle⟩
    exact absurd (hbeyond p hp) (not_lt_of_ge hle)

/-- The lookup gives the least position where the greatest mapped position is generated. -/
theorem forward?_eq_some_iff (h : a.Ordered) :
    a.forward? source position = some g ↔
      ∃ p, IsGreatest {p | p ∈ a.mapped source ∧ p ≤ position} p ∧
        IsLeast (a.landings ⟨source, p⟩) g := by
  constructor
  · exact h.exists_of_forward?
  · rintro ⟨p, hp, hleast⟩
    rcases h.forward?_spec source position with ⟨p', g', hp', hleast', hg'⟩ | ⟨hbeyond, -⟩
    · obtain rfl := hp.unique hp'
      obtain rfl := hleast.unique hleast'
      exact hg'
    · exact absurd (hbeyond p hp.1.1) (not_lt_of_ge hp.1.2)

/-- Two atlases that generate a source alike answer alike for it. -/
theorem forward?_congr (ha : a.Ordered) (hb : b.Ordered)
    (hlandings : ∀ p, b.landings ⟨source, p⟩ = a.landings ⟨source, p⟩) :
    b.forward? source position = a.forward? source position := by
  have hmapped : b.mapped source = a.mapped source := by
    ext p
    rw [mem_mapped_iff_nonempty, mem_mapped_iff_nonempty, hlandings]
  ext g
  simp only [hb.forward?_eq_some_iff, ha.forward?_eq_some_iff, hmapped, hlandings]

end Ordered

/-- A lookup from a source position finds something exactly if some segment comes from the source at
or before the position. Then it finds the least position that is generated from the greatest one of
these. Atlases that differ in unmapped segments and in those of other sources find the same. -/
theorem forward?_floor {m : SourceMap} (h : ofSourceMap m = .ok a) (source : UInt32)
    (position : Position) :
    ((a.forward? source position).isSome = true ↔
      ∃ s ∈ a.segments, ∃ p ≤ position, s.origin = some ⟨source, p⟩) ∧
    (∀ g, a.forward? source position = some g ↔
      ∃ p, IsGreatest {p | p ∈ a.mapped source ∧ p ≤ position} p ∧
        IsLeast (a.landings ⟨source, p⟩) g) ∧
    ∀ (m' : SourceMap) (b : Atlas), ofSourceMap m' = .ok b →
      (∀ p, b.landings ⟨source, p⟩ = a.landings ⟨source, p⟩) →
      b.forward? source position = a.forward? source position := by
  have hord := ordered_ofSourceMap h
  refine ⟨?_, fun g => hord.forward?_eq_some_iff, ?_⟩
  · rw [hord.isSome_forward?_iff]
    constructor
    · rintro ⟨p, ⟨s, hs, horigin⟩, hle⟩
      exact ⟨s, hs, p, hle, horigin⟩
    · rintro ⟨s, hs, p, hle, horigin⟩
      exact ⟨p, ⟨s, hs, horigin⟩, hle⟩
  · intro m' b h' hlandings
    exact hord.forward?_congr (ordered_ofSourceMap h') hlandings

/-- What `twoSources` says of its first source alone. -/
def firstSource : SourceMap :=
  ⟨3, none, ["a"], [], "AAAA;;EAAA,GACC", none, none⟩

/-- The atlas of `firstSource`. -/
def firstSourceAtlas : Atlas where
  sources := #["a"]
  sourceRoot := none
  contents := #[none]
  names := #[]
  segments := #[⟨⟨1, 0⟩, some ⟨0, 1, 0⟩, none⟩, ⟨⟨3, 2⟩, some ⟨0, 1, 0⟩, none⟩,
    ⟨⟨3, 5⟩, some ⟨0, 2, 1⟩, none⟩]
  origins := #[(⟨0, 1, 0⟩, ⟨1, 0⟩), (⟨0, 1, 0⟩, ⟨3, 2⟩), (⟨0, 2, 1⟩, ⟨3, 5⟩)]

theorem ofSourceMap_firstSource : ofSourceMap firstSource = .ok firstSourceAtlas := by
  simp only [ofSourceMap, mergeSort_rawLe, mergeSort_originLe]
  rfl

theorem forward?_floor_twoSources : ofSourceMap twoSources = .ok twoSourcesAtlas ∧
    ofSourceMap firstSource = .ok firstSourceAtlas ∧
    (twoSourcesAtlas.forward? 0 ⟨1, 9⟩).isSome = true ∧
    twoSourcesAtlas.forward? 7 ⟨1, 9⟩ = none ∧
    (∃ p, IsGreatest {p | p ∈ twoSourcesAtlas.mapped 0 ∧ p ≤ ⟨1, 9⟩} p ∧
      IsLeast (twoSourcesAtlas.landings ⟨0, p⟩) ⟨1, 0⟩) ∧
    firstSourceAtlas.forward? 0 ⟨1, 9⟩ = twoSourcesAtlas.forward? 0 ⟨1, 9⟩ := by
  have hlandings : ∀ p, firstSourceAtlas.landings ⟨0, p⟩ = twoSourcesAtlas.landings ⟨0, p⟩ := by
    intro p
    simp [landings, firstSourceAtlas, twoSourcesAtlas]
  obtain ⟨hsome, hfound, hsame⟩ := forward?_floor ofSourceMap_twoSources 0 ⟨1, 9⟩
  refine ⟨ofSourceMap_twoSources, ofSourceMap_firstSource, ?_, ?_,
    (hfound ⟨1, 0⟩).mp (by decide), hsame _ _ ofSourceMap_firstSource hlandings⟩
  · exact hsome.mpr ⟨_, Array.getElem_mem (by decide : 0 < twoSourcesAtlas.segments.size), ⟨1, 0⟩,
      by decide, rfl⟩
  · rw [← Option.not_isSome_iff_eq_none, (forward?_floor ofSourceMap_twoSources 7 ⟨1, 9⟩).1]
    simp [twoSourcesAtlas]

end Provenance.Atlas

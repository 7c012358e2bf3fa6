import Provenance.Proofs.Atlas.Tables

/-!
# Lookups as floor searches

A lookup from a source position finds the greatest mapped position up to it and answers with the
first place where that one is generated. A lookup from a generated position finds the greatest
start of a segment up to it on its line and answers with the segment written first there.

## Implementation notes

Each lookup has one lemma that says what it gives and when it gives nothing. All other facts
about lookups are read off these two, without going back to the binary searches.
-/

namespace Provenance.Atlas

variable {a : Atlas}

/-- The positions of a source that segments come from. -/
def mapped (a : Atlas) (source : UInt32) : Set Position :=
  {p | ∃ s ∈ a.segments, s.origin = some ⟨source, p⟩}

/-- The positions at which segments from a place are generated. -/
def landings (a : Atlas) (place : Place) : Set Position :=
  {g | ∃ s ∈ a.segments, s.origin = some place ∧ s.generated = g}

/-- The generated positions at which segments begin. -/
def starts (a : Atlas) : Set Position := {g | ∃ s ∈ a.segments, s.generated = g}

/-- The segments that begin at a generated position, first the one written first. -/
def startingAt (a : Atlas) (g : Position) : List Segment :=
  a.segments.toList.filter fun s => decide (s.generated = g)

theorem mem_startingAt {g : Position} {s : Segment} :
    s ∈ a.startingAt g ↔ s ∈ a.segments ∧ s.generated = g := by
  simp only [startingAt, List.mem_filter, Array.mem_toList_iff, decide_eq_true_eq]

namespace Ordered

/-! ## The table of places -/

theorem mem_origins (h : a.Ordered) {o : Place × Position} :
    o ∈ a.origins ↔ o.2 ∈ a.landings o.1 := by
  rw [← Array.mem_toList_iff, h.origins_perm.mem_iff]
  simp only [originsOf, List.mem_filterMap, Option.map_eq_some_iff, Array.mem_toList_iff]
  constructor
  · rintro ⟨s, hs, place, hplace, rfl⟩
    exact ⟨s, hs, hplace, rfl⟩
  · rintro ⟨s, hs, hplace, hg⟩
    exact ⟨s, hs, o.1, hplace, by rw [hg]⟩

theorem mem_mapped (h : a.Ordered) {source : UInt32} {p : Position} :
    p ∈ a.mapped source ↔ ∃ o ∈ a.origins, o.1 = ⟨source, p⟩ := by
  constructor
  · rintro ⟨s, hs, horigin⟩
    exact ⟨(⟨source, p⟩, s.generated), h.mem_origins.mpr ⟨s, hs, horigin, rfl⟩, rfl⟩
  · rintro ⟨o, ho, hplace⟩
    obtain ⟨s, hs, horigin, -⟩ := h.mem_origins.mp ho
    exact ⟨s, hs, hplace ▸ horigin⟩

theorem origins_sortedBy (h : a.Ordered) : SortedBy Prod.fst a.origins := by
  apply h.origins_sorted.imp
  intro x y hxy
  rcases originLe_iff.mp hxy with hlt | ⟨heq, -⟩
  · exact hlt.le
  · exact heq.le

/-- The first pair of a place has the least position where it is generated. -/
theorem isLeast_of_find? (h : a.Ordered) {place : Place} {o : Place × Position}
    (ho : a.origins.toList.find? (fun x => decide (x.1 = place)) = some o) :
    IsLeast (a.landings place) o.2 := by
  obtain ⟨hplace, before, after, hsplit, hbefore⟩ := List.find?_eq_some_iff_append.mp ho
  have hfst : o.1 = place := of_decide_eq_true hplace
  have hmem : o ∈ a.origins := by simp [← Array.mem_toList_iff, hsplit]
  refine ⟨hfst ▸ h.mem_origins.mp hmem, ?_⟩
  intro g hg
  have hpair : (place, g) ∈ before ++ o :: after := by
    rw [← hsplit, Array.mem_toList_iff]
    exact h.mem_origins.mpr hg
  have hsorted := h.origins_sorted
  rw [hsplit, List.pairwise_append, List.pairwise_cons] at hsorted
  rcases List.mem_append.mp hpair with hin | hin
  · simpa using hbefore _ hin
  · rcases List.mem_cons.mp hin with heq | hin
    · exact (congrArg Prod.snd heq).ge
    · rcases originLe_iff.mp (hsorted.2.1.1 _ hin) with hlt | ⟨-, hle⟩
      · exact absurd hlt (hfst ▸ lt_irrefl _)
      · exact hle

section Floor

variable {source : UInt32} {position : Position} {found : Place}

/-- The greatest place up to a position of its own source is the greatest one of that source. -/
theorem isGreatest_mapped (h : a.Ordered)
    (hfound : IsGreatest {b | b ≤ (⟨source, position⟩ : Place) ∧ ∃ o ∈ a.origins, o.1 = b} found)
    (hsource : found.source = source) :
    IsGreatest {p | p ∈ a.mapped source ∧ p ≤ position} found.position := by
  obtain ⟨⟨hle, hmem⟩, hmax⟩ := hfound
  obtain ⟨s, p⟩ := found
  obtain rfl : s = source := hsource
  refine ⟨⟨h.mem_mapped.mpr hmem, Place.mk_le_mk.mp hle⟩, ?_⟩
  rintro q ⟨hq, hqle⟩
  exact Place.mk_le_mk.mp (hmax ⟨Place.mk_le_mk.mpr hqle, h.mem_mapped.mp hq⟩)

/-- Where the greatest place is of another source, the source has nothing up to the position. -/
theorem lt_of_mem_mapped (h : a.Ordered)
    (hfound : IsGreatest {b | b ≤ (⟨source, position⟩ : Place) ∧ ∃ o ∈ a.origins, o.1 = b} found)
    (hsource : found.source ≠ source) : ∀ p ∈ a.mapped source, position < p := by
  intro p hp
  by_contra hlt
  have hle : (⟨source, p⟩ : Place) ≤ ⟨source, position⟩ := Place.mk_le_mk.mpr (not_lt.mp hlt)
  have hmax := hfound.2 ⟨hle, h.mem_mapped.mp hp⟩
  exact hsource (Place.source_eq_of_between hmax hfound.1.1 rfl)

end Floor

/-! ## From a source position -/

/-- What a lookup from a source position gives. -/
theorem forward?_spec (h : a.Ordered) (source : UInt32) (position : Position) :
    (∃ p g, IsGreatest {p | p ∈ a.mapped source ∧ p ≤ position} p ∧
        IsLeast (a.landings ⟨source, p⟩) g ∧ a.forward? source position = some g) ∨
      (∀ p ∈ a.mapped source, position < p) ∧ a.forward? source position = none := by
  rw [forward?]
  cases hcut : partitionPoint (fun o => decide (o.1 ≤ ⟨source, position⟩)) a.origins with
  | zero =>
      refine Or.inr ⟨fun p hp => ?_, rfl⟩
      obtain ⟨o, ho, hplace⟩ := h.mem_mapped.mp hp
      have hlt := (h.origins_sortedBy.cut_le_eq_zero_iff _).mp hcut o ho
      rwa [hplace, ← not_le, Place.mk_le_mk, not_le] at hlt
  | succ last =>
      obtain ⟨hi, hfound⟩ := h.origins_sortedBy.isGreatest_before_cut hcut
      have hmem : a.origins[last] ∈ a.origins := Array.getElem_mem hi
      obtain ⟨o, hfirst, ho, -⟩ := h.origins_sortedBy.exists_first hmem
      simp only [Array.getElem?_eq_getElem hi, Option.bind_eq_bind, Option.bind_some, hfirst,
        Option.map_some]
      by_cases hsource : a.origins[last].1.source = source
      · refine Or.inl ⟨_, o.2, h.isGreatest_mapped hfound hsource, ?_, ?_⟩
        · rw [← hsource]
          exact h.isLeast_of_find? ho
        · exact if_neg (not_not.mpr hsource)
      · exact Or.inr ⟨h.lt_of_mem_mapped hfound hsource, if_pos hsource⟩

/-! ## From a generated position -/

/-- What a lookup from a generated position gives. -/
theorem segment?_spec (h : a.Ordered) (position : Position) :
    (∃ s, IsGreatest {g | g ∈ a.starts ∧ g.line = position.line ∧ g ≤ position} s.generated ∧
        (a.startingAt s.generated).head? = some s ∧ a.segment? position = some s) ∨
      (∀ g ∈ a.starts, g.line = position.line → position < g) ∧
        a.segment? position = none := by
  rw [segment?]
  cases hcut : partitionPoint (fun s => decide (s.generated ≤ position)) a.segments with
  | zero =>
      refine Or.inr ⟨?_, rfl⟩
      rintro g ⟨s, hs, rfl⟩ -
      exact (h.segments_sorted.cut_le_eq_zero_iff _).mp hcut s hs
  | succ last =>
      obtain ⟨hi, hfound⟩ := h.segments_sorted.isGreatest_before_cut hcut
      have hmem : a.segments[last] ∈ a.segments := Array.getElem_mem hi
      obtain ⟨s, hfirst, hs, hg⟩ := h.segments_sorted.exists_first hmem
      simp only [Array.getElem?_eq_getElem hi, Option.bind_eq_bind, Option.bind_some, hfirst]
      by_cases hline : a.segments[last].generated.line = position.line
      · refine Or.inl ⟨s, ?_, ?_, if_neg (not_not.mpr hline)⟩
        · rw [hg]
          refine ⟨⟨hfound.1.2, hline, hfound.1.1⟩, ?_⟩
          rintro g ⟨hstart, -, hle⟩
          exact hfound.2 ⟨hle, hstart⟩
        · rw [startingAt, List.head?_filter, hg, hs]
      · refine Or.inr ⟨?_, if_pos hline⟩
        intro g hstart hgl
        by_contra hlt
        have hmax := hfound.2 ⟨not_lt.mp hlt, hstart⟩
        exact hline (Position.line_eq_of_between hmax hfound.1.1 hgl)

end Ordered

end Provenance.Atlas

import Mathlib.Data.List.Sort
import Provenance.Atlas
import Provenance.Proofs.Position.Order
import Provenance.Proofs.Search.Floor

/-!
# The tables of an atlas

A source map gives an atlas exactly if its version is 3, its mappings text can be decoded and
every decoded segment lies in range. The two tables of the atlas then hold the written segments:
one sorted by generated position, where equal positions keep the order of writing, the other
with the places they come from.

## Implementation notes

Decoding checks the segments after sorting them. Since the check of a segment does not depend on
its neighbours and shifting the lines keeps the order, an accepted map may as well be checked in
the order of writing and sorted afterwards, which is how `ofWritten` describes it.
-/

namespace Provenance

open Provenance.Mappings

/-! ## Lists -/

/-- A test that either fails or gives a fixed image passes on a list where it passes throughout. -/
theorem mapM_eq_ok_iff {α β ε : Type} {f : α → Except ε β} {valid : α → Prop} {image : α → β}
    (hf : ∀ a b, f a = .ok b ↔ valid a ∧ b = image a) (xs : List α) (ys : List β) :
    xs.mapM f = .ok ys ↔ (∀ x ∈ xs, valid x) ∧ ys = xs.map image := by
  induction xs generalizing ys with
  | nil => simp [pure, Except.pure, eq_comm]
  | cons x rest ih =>
      simp only [List.mapM_cons, bind, Except.bind, List.forall_mem_cons, List.map_cons]
      cases hx : f x with
      | error e =>
          have hinvalid : ¬ valid x := by
            intro hv
            rw [(hf x (image x)).mpr ⟨hv, rfl⟩] at hx
            cases hx
          simp [hinvalid]
      | ok y =>
          obtain ⟨hv, rfl⟩ := (hf x y).mp hx
          cases hrest : rest.mapM f with
          | error e =>
              have hfail : ¬ ∀ z ∈ rest, valid z := by
                intro hall
                rw [(ih (rest.map image)).mpr ⟨hall, rfl⟩] at hrest
                cases hrest
              simp [hv, hfail]
          | ok zs =>
              obtain ⟨hall, rfl⟩ := (ih zs).mp hrest
              simp only [pure, Except.pure, Except.ok.injEq, hv, true_and]
              constructor
              · rintro rfl
                exact ⟨hall, rfl⟩
              · rintro ⟨-, rfl⟩
                rfl

/-- Sorting leaves entries that may stand in either order as they stood. -/
theorem filter_mergeSort {α : Type} {le : α → α → Bool}
    (trans : ∀ a b c, le a b = true → le b c = true → le a c = true)
    (total : ∀ a b, (le a b || le b a) = true) {p : α → Bool}
    (tied : ∀ a b, p a = true → p b = true → le a b = true) (xs : List α) :
    (xs.mergeSort le).filter p = xs.filter p := by
  have hsorted : (xs.filter p).Pairwise fun a b => le a b = true := by
    apply List.Pairwise.imp_of_mem (R := fun _ _ => True)
    · intro a b ha hb _
      exact tied a b (List.mem_filter.mp ha).2 (List.mem_filter.mp hb).2
    · exact List.pairwise_of_forall fun _ _ => trivial
  have hsub : (xs.filter p).Sublist (xs.mergeSort le) :=
    List.sublist_mergeSort trans total hsorted List.filter_sublist
  have hkept : (xs.filter p).Sublist ((xs.mergeSort le).filter p) := by
    simpa only [List.filter_filter, Bool.and_self] using hsub.filter p
  exact (hkept.eq_of_length ((List.mergeSort_perm xs le).filter p).length_eq.symm).symm

/-- Sorting by halves gives what inserting one entry after the other gives. -/
theorem mergeSort_eq_insertionSort {α : Type} {le : α → α → Bool}
    (trans : ∀ a b c, le a b = true → le b c = true → le a c = true)
    (total : ∀ a b, (le a b || le b a) = true) (xs : List α) :
    xs.mergeSort le = xs.insertionSort fun a b => le a b = true := by
  induction xs with
  | nil => exact List.mergeSort_nil
  | cons x xs ih =>
      obtain ⟨before, after, hcons, hxs, hbefore⟩ := List.mergeSort_cons trans total x xs
      have hsorted := List.pairwise_mergeSort trans total (x :: xs)
      rw [hcons] at hsorted
      rw [hcons, List.insertionSort_cons, ← ih, hxs]
      clear hcons hxs ih
      -- `x` is inserted behind all that must stand before it
      induction before with
      | nil =>
          cases after with
          | nil => rfl
          | cons y after =>
              have hle := List.rel_of_pairwise_cons hsorted List.mem_cons_self
              exact (List.orderedInsert_cons_of_le _ after hle).symm
      | cons y before ih =>
          have hnot : ¬ le x y = true := by simpa using hbefore y List.mem_cons_self
          have hrest := ih (fun z hz => hbefore z (List.mem_cons_of_mem y hz)) hsorted.of_cons
          rw [List.cons_append, List.cons_append, List.orderedInsert_cons, if_neg hnot, ← hrest]

/-! ## Segments in range -/

/-- No line or column of the segment passes the limit. -/
def Mappings.RawSegment.InRange (raw : RawSegment) : Prop :=
  raw.line ≤ Segment.limit ∧ raw.column ≤ Segment.limit ∧
    ∀ o ∈ raw.origin, o.line ≤ Segment.limit ∧ o.column ≤ Segment.limit

namespace Segment

/-- The position whose line counts from 1. -/
def shiftedPosition (line column : UInt32) : Position := ⟨line + 1, column⟩

/-- The segment with its lines counted from 1. -/
def ofShifted (raw : RawSegment) : Segment :=
  ⟨shiftedPosition raw.line raw.column,
    raw.origin.map fun o => ⟨o.source, shiftedPosition o.line o.column⟩, raw.name⟩

theorem position?_eq_ok_iff {line column : UInt32} {p : Position} :
    position? line column = .ok p ↔
      (line ≤ limit ∧ column ≤ limit) ∧ p = shiftedPosition line column := by
  have hsplit : line ≤ limit ∧ column ≤ limit ↔ ¬ (limit < line ∨ limit < column) := by
    simp only [UInt32.lt_iff_toNat_lt, UInt32.le_iff_toNat_le]
    omega
  rw [position?, hsplit]
  by_cases h : limit < line ∨ limit < column
  · simp [h]
  · rw [if_neg h, Except.ok.injEq]
    simp only [h, not_false_eq_true, true_and]
    exact eq_comm

theorem not_inRange_of_position?_eq_error {line column : UInt32} {e : MapError}
    (h : position? line column = .error e) : ¬ (line ≤ limit ∧ column ≤ limit) := by
  intro hin
  rw [position?_eq_ok_iff.mpr ⟨hin, rfl⟩] at h
  cases h

/-- Checking a segment succeeds exactly in range and shifts its lines. -/
theorem ofRaw_eq_ok_iff (raw : RawSegment) (s : Segment) :
    ofRaw raw = .ok s ↔ raw.InRange ∧ s = ofShifted raw := by
  obtain ⟨line, column, origin, name⟩ := raw
  simp only [ofRaw, RawSegment.InRange, ofShifted, bind, Except.bind, pure, Except.pure]
  cases hg : position? line column with
  | error e =>
      have hout := not_inRange_of_position?_eq_error hg
      simp [← and_assoc, hout]
  | ok g =>
      obtain ⟨hin, rfl⟩ := position?_eq_ok_iff.mp hg
      cases origin with
      | none => simp [hin, eq_comm]
      | some o =>
          cases ho : position? o.line o.column with
          | error e =>
              have hout := not_inRange_of_position?_eq_error ho
              simp [hin, hout, ho]
          | ok p =>
              obtain ⟨hon, rfl⟩ := position?_eq_ok_iff.mp ho
              simp [hin, hon, ho, eq_comm]

/-- Shifting lines that are in range keeps the order of generated positions. -/
theorem rawLe_eq_decide {a b : RawSegment} (ha : a.InRange) (hb : b.InRange) :
    Atlas.rawLe a b = decide ((ofShifted a).generated ≤ (ofShifted b).generated) := by
  have hla := UInt32.le_iff_toNat_le.mp ha.1
  have hlb := UInt32.le_iff_toNat_le.mp hb.1
  have hlimit : limit.toNat = 2147483647 := rfl
  have hone : (1 : UInt32).toNat = 1 := rfl
  rw [Bool.eq_iff_iff]
  simp only [Atlas.rawLe, ofShifted, shiftedPosition, Bool.or_eq_true, Bool.and_eq_true,
    decide_eq_true_eq, beq_iff_eq, Position.le_def, UInt32.lt_iff_toNat_lt,
    UInt32.le_iff_toNat_le, ← UInt32.toNat_inj, UInt32.toNat_add, hone]
  rw [Nat.mod_eq_of_lt (by omega), Nat.mod_eq_of_lt (by omega)]
  omega

end Segment

/-! ## Accepted maps -/

/-- The decoded segments of a source map, in the order in which they are written. -/
def SourceMap.raw (m : SourceMap) : Except MappingsError (List RawSegment) :=
  decode ⟨m.sources.length, m.names.length⟩ m.mappings

/-- The segments of a source map, in the order in which they are written. A text that cannot be
decoded has none. -/
def SourceMap.written (m : SourceMap) : List Segment :=
  match m.raw with
  | .ok raw => raw.map Segment.ofShifted
  | .error _ => []

namespace Atlas

/-- Segments are sorted by generated position. -/
def generatedLe (a b : Segment) : Bool := decide (a.generated ≤ b.generated)

/-- The atlas of a source map whose segments are known. -/
def ofWritten (m : SourceMap) (written : List Segment) : Atlas where
  sources := m.sources.toArray
  sourceRoot := m.sourceRoot
  contents := (m.sourcesContent.getD (m.sources.map fun _ => none)).toArray
  names := m.names.toArray
  segments := (written.mergeSort generatedLe).toArray
  origins := ((originsOf (written.mergeSort generatedLe)).mergeSort originLe).toArray

/-- A map is accepted exactly if it is of version 3 and all its segments are decoded and in
range; its atlas then holds the written segments. -/
theorem ofSourceMap_eq_ok_iff {m : SourceMap} {a : Atlas} :
    ofSourceMap m = .ok a ↔
      m.version = 3 ∧ (∃ raw, m.raw = .ok raw ∧ ∀ r ∈ raw, r.InRange) ∧
        a = ofWritten m m.written := by
  simp only [ofSourceMap, SourceMap.written, SourceMap.raw]
  by_cases hv : m.version = 3
  · cases hd : decode ⟨m.sources.length, m.names.length⟩ m.mappings with
    | error e => simp [hv, bind, Except.bind, Except.mapError]
    | ok raw =>
        have hcheck := mapM_eq_ok_iff Segment.ofRaw_eq_ok_iff (raw.mergeSort rawLe)
        simp only [List.mem_mergeSort] at hcheck
        by_cases hin : ∀ r ∈ raw, r.InRange
        · have hsort : (raw.mergeSort rawLe).map Segment.ofShifted =
              (raw.map Segment.ofShifted).mergeSort generatedLe :=
            List.map_mergeSort fun r hr r' hr' => Segment.rawLe_eq_decide (hin r hr) (hin r' hr')
          have hok := (hcheck _).mpr ⟨hin, rfl⟩
          simp only [hv, bind, Except.bind, Except.mapError, pure, Except.pure, hok, hsort,
            ofWritten, ne_eq, not_true_eq_false, ↓reduceIte, Except.ok.injEq, true_and]
          constructor
          · rintro rfl
            exact ⟨⟨raw, rfl, hin⟩, rfl⟩
          · rintro ⟨-, rfl⟩
            rfl
        · cases hok : (raw.mergeSort rawLe).mapM Segment.ofRaw with
          | error e => simp [hv, bind, Except.bind, Except.mapError, hok, hin]
          | ok segments => exact absurd ((hcheck segments).mp hok).1 hin
  · simp [hv]

/-! ## Order of the tables -/

/-- Both tables are sorted, and the second has the places of the first. -/
structure Ordered (a : Atlas) : Prop where
  segments_sorted : SortedBy Segment.generated a.segments
  origins_sorted : a.origins.toList.Pairwise fun x y => originLe x y = true
  origins_perm : a.origins.toList.Perm (originsOf a.segments.toList)

theorem generatedLe_trans (a b c : Segment) (hab : generatedLe a b = true)
    (hbc : generatedLe b c = true) : generatedLe a c = true :=
  decide_eq_true ((of_decide_eq_true hab).trans (of_decide_eq_true hbc))

theorem generatedLe_total (a b : Segment) : (generatedLe a b || generatedLe b a) = true := by
  simp only [generatedLe, Bool.or_eq_true, decide_eq_true_eq]
  exact le_total a.generated b.generated

/-- Pairs of places are compared like words of two letters. -/
theorem originLe_iff {a b : Place × Position} :
    originLe a b = true ↔ a.1 < b.1 ∨ a.1 = b.1 ∧ a.2 ≤ b.2 := by
  simp only [originLe, Bool.or_eq_true, Bool.and_eq_true, decide_eq_true_eq, beq_iff_eq]

theorem originLe_trans (a b c : Place × Position) (hab : originLe a b = true)
    (hbc : originLe b c = true) : originLe a c = true := by
  rw [originLe_iff] at *
  rcases hab with hab | ⟨hab, hab'⟩
  · rcases hbc with hbc | ⟨hbc, -⟩
    · exact Or.inl (hab.trans hbc)
    · exact Or.inl (hbc ▸ hab)
  · rcases hbc with hbc | ⟨hbc, hbc'⟩
    · exact Or.inl (hab ▸ hbc)
    · exact Or.inr ⟨hab.trans hbc, hab'.trans hbc'⟩

theorem originLe_total (a b : Place × Position) : (originLe a b || originLe b a) = true := by
  simp only [Bool.or_eq_true, originLe_iff]
  rcases lt_trichotomy a.1 b.1 with h | h | h
  · exact Or.inl (Or.inl h)
  · rcases le_total a.2 b.2 with h' | h'
    · exact Or.inl (Or.inr ⟨h, h'⟩)
    · exact Or.inr (Or.inr ⟨h.symm, h'⟩)
  · exact Or.inr (Or.inl h)

theorem ordered_ofWritten (m : SourceMap) (written : List Segment) :
    (ofWritten m written).Ordered where
  segments_sorted := by
    have hsorted := List.pairwise_mergeSort generatedLe_trans generatedLe_total written
    simpa only [SortedBy, ofWritten, generatedLe, decide_eq_true_eq] using hsorted
  origins_sorted := List.pairwise_mergeSort originLe_trans originLe_total _
  origins_perm := List.mergeSort_perm _ originLe

/-- The tables of an accepted map are in order. -/
theorem ordered_ofSourceMap {m : SourceMap} {a : Atlas} (h : ofSourceMap m = .ok a) :
    a.Ordered := by
  obtain ⟨-, -, rfl⟩ := ofSourceMap_eq_ok_iff.mp h
  exact ordered_ofWritten m m.written

/-- The segments at one generated position stand as they are written. -/
theorem filter_segments {m : SourceMap} {a : Atlas} (h : ofSourceMap m = .ok a) (g : Position) :
    a.segments.toList.filter (fun s => decide (s.generated = g)) =
      m.written.filter fun s => decide (s.generated = g) := by
  obtain ⟨-, -, rfl⟩ := ofSourceMap_eq_ok_iff.mp h
  apply filter_mergeSort generatedLe_trans generatedLe_total
  intro s s' hs hs'
  simp only [decide_eq_true_eq] at hs hs'
  exact decide_eq_true (hs.trans hs'.symm).le

/-! ## Sorting by insertion

`List.mergeSort` does not reduce. For a fixed map both sorts are exchanged for sorts by insertion,
which do.
-/

theorem rawLe_trans (a b c : RawSegment) (hab : rawLe a b = true) (hbc : rawLe b c = true) :
    rawLe a c = true := by
  simp only [rawLe, Bool.or_eq_true, Bool.and_eq_true, decide_eq_true_eq, beq_iff_eq] at *
  grind

theorem rawLe_total (a b : RawSegment) : (rawLe a b || rawLe b a) = true := by
  simp only [rawLe, Bool.or_eq_true, Bool.and_eq_true, decide_eq_true_eq, beq_iff_eq]
  grind

theorem mergeSort_rawLe (raw : List RawSegment) :
    raw.mergeSort rawLe = raw.insertionSort fun a b => rawLe a b = true :=
  mergeSort_eq_insertionSort rawLe_trans rawLe_total raw

theorem mergeSort_originLe (places : List (Place × Position)) :
    places.mergeSort originLe = places.insertionSort fun a b => originLe a b = true :=
  mergeSort_eq_insertionSort originLe_trans originLe_total places

end Atlas

end Provenance

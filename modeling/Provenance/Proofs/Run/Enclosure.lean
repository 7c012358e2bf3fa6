import Mathlib.Order.Bounds.Basic
import Mathlib.Order.MinMax
import Provenance.Proofs.Position.Order
import Provenance.Run

/-!
# The envelope of runs

The envelope of some runs reaches from the least position at which one of them begins to the
greatest one at which one of them ends. So it depends on which runs there are and not on their order
or number, the envelope of two lists of runs together is the join of their envelopes, and it reaches
over several lines exactly if the runs do.

## Implementation notes

The two bounds may come from different runs, and a run may end before it begins. Nothing here
compares the beginning of a run with its end.
-/

namespace Provenance.Envelope

variable {runs more : List Run} {e f : Envelope}

/-- The positions at one end of some runs. -/
def ends (side : Run → Position) (runs : List Run) : Set Position :=
  {p | ∃ r ∈ runs, side r = p}

/-- The least envelope that contains two others. -/
def join (e f : Envelope) : Envelope := ⟨min e.first f.first, max e.last f.last⟩

/-! ## Bounds -/

variable (side : Run → Position)

theorem ends_eq_map (runs : List Run) : ends side runs = {p | p ∈ runs.map side} := by
  ext p
  exact List.mem_map.symm

theorem ends_append (runs more : List Run) :
    ends side (runs ++ more) = ends side runs ∪ ends side more := by
  ext p
  simp only [ends, List.mem_append, or_and_right, exists_or, Set.mem_ofPred_eq, Set.mem_union]

theorem ends_congr (h : ∀ r, r ∈ more ↔ r ∈ runs) : ends side more = ends side runs := by
  ext p
  simp only [ends, h]

theorem min?_eq_some_iff_isLeast {p : Position} :
    (runs.map side).min? = some p ↔ IsLeast (ends side runs) p := by
  rw [ends_eq_map]
  exact List.min?_eq_some_iff

theorem max?_eq_some_iff_isGreatest {p : Position} :
    (runs.map side).max? = some p ↔ IsGreatest (ends side runs) p := by
  rw [ends_eq_map]
  exact List.max?_eq_some_iff

/-- The bounds of an envelope are attained, and no run goes beyond them. -/
theorem ofRuns_eq_some_iff :
    ofRuns runs = some e ↔
      IsLeast (ends Run.firstPosition runs) e.first ∧
        IsGreatest (ends Run.stopPosition runs) e.last := by
  rw [← min?_eq_some_iff_isLeast, ← max?_eq_some_iff_isGreatest, ofRuns]
  constructor
  · intro h
    obtain ⟨first, hfirst, h⟩ := Option.bind_eq_some_iff.mp h
    obtain ⟨last, hlast, h⟩ := Option.bind_eq_some_iff.mp h
    cases h
    exact ⟨hfirst, hlast⟩
  · rintro ⟨hfirst, hlast⟩
    rw [hfirst, hlast]
    rfl

theorem ofRuns_eq_none_iff : ofRuns runs = none ↔ runs = [] := by
  constructor
  · intro h
    cases runs with
    | nil => rfl
    | cons r runs =>
        have hr : r ∈ r :: runs := List.mem_cons_self
        obtain ⟨first, hfirst⟩ := Option.isSome_iff_exists.mp
          (List.isSome_min?_of_mem (List.mem_map_of_mem (f := Run.firstPosition) hr))
        obtain ⟨last, hlast⟩ := Option.isSome_iff_exists.mp
          (List.isSome_max?_of_mem (List.mem_map_of_mem (f := Run.stopPosition) hr))
        rw [ofRuns, hfirst, hlast] at h
        cases h
  · rintro rfl
    rfl

/-! ## Lists of runs -/

/-- Only the runs matter, not how often or in which order they are given. -/
theorem ofRuns_congr (h : ∀ r, r ∈ more ↔ r ∈ runs) : ofRuns more = ofRuns runs := by
  ext e
  simp only [ofRuns_eq_some_iff, ends_congr _ h]

/-- Runs that are added join their envelope to that of the others. -/
theorem ofRuns_append (runs more : List Run) :
    ofRuns (runs ++ more) = (ofRuns runs).merge join (ofRuns more) := by
  cases h : ofRuns runs with
  | none => rw [ofRuns_eq_none_iff.mp h, List.nil_append, Option.merge_none_left]
  | some e =>
      cases h' : ofRuns more with
      | none => rw [ofRuns_eq_none_iff.mp h', List.append_nil, h, Option.merge_none_right]
      | some f =>
          obtain ⟨hfirst, hlast⟩ := ofRuns_eq_some_iff.mp h
          obtain ⟨hfirst', hlast'⟩ := ofRuns_eq_some_iff.mp h'
          apply ofRuns_eq_some_iff.mpr
          rw [ends_append, ends_append]
          exact ⟨hfirst.union hfirst', hlast.union hlast'⟩

/-! ## Lines -/

/-- No run leaves the line of an envelope that has only one. -/
theorem line_eq_of_mem (h : ofRuns runs = some e) (hline : e.first.line = e.last.line) {r : Run}
    (hr : r ∈ runs) : r.line = e.first.line := by
  obtain ⟨hfirst, hlast⟩ := ofRuns_eq_some_iff.mp h
  have hle : e.first.line ≤ r.line := Position.line_le_of_le (hfirst.2 ⟨r, hr, rfl⟩)
  have hge : r.line ≤ e.last.line := Position.line_le_of_le (hlast.2 ⟨r, hr, rfl⟩)
  rw [← hline] at hge
  exact UInt32.le_antisymm hge hle

theorem multiLine_iff (h : ofRuns runs = some e) :
    e.multiLine = true ↔ ∃ r ∈ runs, ∃ s ∈ runs, r.line ≠ s.line := by
  rw [multiLine, bne_iff_ne]
  constructor
  · intro hne
    obtain ⟨⟨⟨r, hr, hfirst⟩, -⟩, ⟨s, hs, hlast⟩, -⟩ := ofRuns_eq_some_iff.mp h
    rw [← hfirst, ← hlast] at hne
    exact ⟨r, hr, s, hs, hne⟩
  · rintro ⟨r, hr, s, hs, hne⟩ hline
    apply hne
    rw [line_eq_of_mem h hline hr, line_eq_of_mem h hline hs]

/-- The envelope is the tight bound of its runs. There is none exactly for no runs. Otherwise it
begins with the least beginning of a run and ends with the greatest end of one, whatever the order
of the runs and however often each is given. The envelope of two lists is the join of theirs, and an
envelope reaches over several lines exactly if two of its runs are on different lines. -/
theorem ofRuns_tight (runs : List Run) :
    (ofRuns runs = none ↔ runs = []) ∧
    (∀ e, ofRuns runs = some e ↔
      IsLeast (ends Run.firstPosition runs) e.first ∧
        IsGreatest (ends Run.stopPosition runs) e.last) ∧
    (∀ others : List Run, (∀ r, r ∈ others ↔ r ∈ runs) → ofRuns others = ofRuns runs) ∧
    (∀ more : List Run, ofRuns (runs ++ more) = (ofRuns runs).merge join (ofRuns more)) ∧
    ∀ e, ofRuns runs = some e →
      (e.multiLine = true ↔ ∃ r ∈ runs, ∃ s ∈ runs, r.line ≠ s.line) := by
  refine ⟨ofRuns_eq_none_iff, fun _ => ofRuns_eq_some_iff, ?_, ofRuns_append runs, ?_⟩
  · intro others h
    exact ofRuns_congr h
  · intro e h
    exact multiLine_iff h

/-- Runs on three lines. One is given twice, and one ends before it begins. -/
def scattered : List Run := [⟨3, 0, 4⟩, ⟨1, 10, 15⟩, ⟨2, 7, 1⟩, ⟨1, 10, 15⟩]

theorem ofRuns_tight_scattered : ofRuns scattered = some ⟨⟨1, 10⟩, ⟨3, 4⟩⟩ ∧
    IsLeast (ends Run.firstPosition scattered) ⟨1, 10⟩ ∧
    IsGreatest (ends Run.stopPosition scattered) ⟨3, 4⟩ ∧
    ofRuns [⟨2, 7, 1⟩, ⟨1, 10, 15⟩, ⟨3, 0, 4⟩] = ofRuns scattered ∧
    ofRuns (scattered ++ [⟨1, 2, 3⟩, ⟨3, 4, 4⟩]) =
      some (join ⟨⟨1, 10⟩, ⟨3, 4⟩⟩ ⟨⟨1, 2⟩, ⟨3, 4⟩⟩) ∧
    ∃ r ∈ scattered, ∃ s ∈ scattered, r.line ≠ s.line := by
  obtain ⟨-, hbounds, hsame, happend, hlines⟩ := ofRuns_tight scattered
  have h : ofRuns scattered = some ⟨⟨1, 10⟩, ⟨3, 4⟩⟩ := by decide
  obtain ⟨hfirst, hlast⟩ := (hbounds _).mp h
  refine ⟨h, hfirst, hlast, ?_, ?_, (hlines _ h).mp (by decide)⟩
  · apply hsame
    intro r
    simp only [scattered, List.mem_cons, List.not_mem_nil, or_false]
    tauto
  · rw [happend, h]
    rfl

end Provenance.Envelope

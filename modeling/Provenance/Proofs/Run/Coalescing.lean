import Provenance.Proofs.Run.Cuts

/-!
# Coalesced runs

Coalescing cuts a list of places into runs. Written out run after run, they are the places in their
order, so they cover nothing but these places, and they cover each of them. There is one run for
each place at which one has to begin, which is as few as there can be.

## Implementation notes

While places are merged, all that matters of the run that may still grow is the place it ends with.
Which place it began with is known only when the run is complete, so `cuts_coalesceFrom` says of the
first run how it goes on from the place where it stands.
-/

namespace Provenance.Run

variable {before : Option Place} {current : Option Run} {p q : Place} {r : Run}
  {places : List (Option Place)}

/-! ## The run that may grow -/

/-- The run ends with the place. -/
def EndsWith (r : Run) (p : Place) : Prop :=
  r.line = p.line ∧ r.stop = (single p.line p.column).stop

theorem endsWith_single (p : Place) : EndsWith (single p.line p.column) p := ⟨rfl, rfl⟩

theorem EndsWith.grown (hr : EndsWith r p) (h : ¬ Begins (some p) q) :
    EndsWith { r with stop := (single q.line q.column).stop } q :=
  ⟨hr.1.trans (not_begins_some_iff.mp h).2.1, rfl⟩

/-- The part of a run at its last place is the run of that place alone. -/
theorem EndsWith.last (hr : EndsWith r p) :
    { r with first := p.column } = single p.line p.column := by
  obtain ⟨line, first, stop⟩ := r
  obtain ⟨hline, hstop⟩ := hr
  simp only at hline hstop
  rw [hline, hstop]
  rfl

/-- A run grows by a place at which none has to begin. -/
theorem extend?_of_not_begins (hr : EndsWith r p) (h : ¬ Begins (some p) q) :
    r.extend? q = some { r with stop := (single q.line q.column).stop } := by
  obtain ⟨hcolumn, hadjoins⟩ := not_begins_some_iff.mp h
  have hp := hadjoins.column_ne
  have hstop : r.stop = q.column := by
    rw [hr.2, single, if_neg hp, ← UInt32.toNat_inj, toNat_succ_column hp, hadjoins.2]
  rw [extend?, if_pos ⟨hr.1.trans hadjoins.1, hstop, hcolumn⟩, single, if_neg hcolumn]

/-- A run does not grow by a place at which one has to begin. -/
theorem extend?_of_begins (hr : EndsWith r p) (h : Begins (some p) q) :
    r.extend? q = none := by
  rw [extend?, if_neg]
  rintro ⟨hline, hstop, hcolumn⟩
  apply not_begins_some_iff.mpr ⟨hcolumn, hr.1.symm.trans hline, ?_⟩ h
  rw [hr.2] at hstop
  by_cases hp : p.column = lastColumn
  · rw [single, if_pos hp] at hstop
    exact absurd hstop.symm hcolumn
  · rw [single, if_neg hp] at hstop
    rw [← hstop, toNat_succ_column hp]

/-! ## Merging -/

/-- There is one run for each beginning, besides the one that may grow. -/
theorem length_coalesceFrom (h : Option.Rel EndsWith current before) :
    (coalesceFrom current places).length =
      current.toList.length + beginnings before places := by
  induction places generalizing current before with
  | nil => simp [coalesceFrom]
  | cons place places ih =>
      cases place with
      | none =>
          rw [coalesceFrom, List.length_append, ih Option.Rel.none, beginnings_none]
          simp
      | some q =>
          have hsingle := ih (Option.Rel.some (endsWith_single q))
          rw [Option.toList_some, List.length_singleton] at hsingle
          cases h with
          | none =>
              simp only [coalesceFrom, Option.bind_none, Option.toList_none, List.nil_append,
                hsingle, beginnings_some, begins_none, if_true, List.length_nil]
              omega
          | @some r p hr =>
              by_cases hb : Begins (some p) q
              · simp only [coalesceFrom, Option.bind_some, extend?_of_begins hr hb,
                  List.length_append, hsingle, beginnings_some, hb, if_true]
                omega
              · simp only [coalesceFrom, Option.bind_some, extend?_of_not_begins hr hb,
                  beginnings_some, hb, if_false]
                exact ih (Option.Rel.some (hr.grown hb))

/-- Merging cuts the list. A run that ends with a place is completed by the places behind it. -/
theorem cuts_coalesceFrom (places : List (Option Place)) :
    Cuts places (coalesceFrom none places) ∧
      ∀ r p, EndsWith r p → ∃ head tail,
        coalesceFrom (some r) places = head :: tail ∧ head.first = r.first ∧
          Cuts (some p :: places) ({ head with first := p.column } :: tail) := by
  induction places with
  | nil =>
      refine ⟨Cuts.nil, ?_⟩
      intro r p hr
      refine ⟨r, [], rfl, rfl, ?_⟩
      rw [hr.last]
      exact Cuts.alone p Cuts.nil
  | cons place places ih =>
      obtain ⟨hnone, hsome⟩ := ih
      cases place with
      | none =>
          refine ⟨hnone.miss, ?_⟩
          intro r p hr
          refine ⟨r, coalesceFrom none places, rfl, rfl, ?_⟩
          rw [hr.last]
          exact Cuts.alone p hnone.miss
      | some q =>
          -- A run that begins with the place is complete as it is.
          obtain ⟨head, tail, hrest, hfirst, hcut⟩ := hsome _ q (endsWith_single q)
          have hcolumn : head.first = q.column := hfirst
          rw [← hcolumn] at hcut
          constructor
          · simpa only [coalesceFrom, Option.bind_none, Option.toList_none, List.nil_append,
              hrest] using hcut
          · intro r p hr
            by_cases hb : Begins (some p) q
            · refine ⟨r, head :: tail, ?_, rfl, ?_⟩
              · simp only [coalesceFrom, Option.bind_some, extend?_of_begins hr hb, hrest]
                rfl
              · rw [hr.last]
                exact Cuts.alone p hcut
            · obtain ⟨head, tail, hrest, hfirst, hcut⟩ := hsome _ q (hr.grown hb)
              obtain ⟨hcolumn, hadjoins⟩ := not_begins_some_iff.mp hb
              have hjoined := Cuts.joined hcolumn hadjoins hcut
              refine ⟨head, tail, ?_, hfirst, hjoined⟩
              simp only [coalesceFrom, Option.bind_some, extend?_of_not_begins hr hb, hrest]

/-! ## Coalescing -/

theorem cuts_coalesce (places : List (Option Place)) : Cuts places (coalesce places) :=
  (cuts_coalesceFrom places).1

theorem length_coalesce (places : List (Option Place)) :
    (coalesce places).length = beginnings none places := by
  rw [coalesce, length_coalesceFrom Option.Rel.none, Option.toList_none, List.length_nil,
    Nat.zero_add]

/-- The runs cover exactly the places that are not at the last column. -/
theorem exists_covers_iff {p : Position} : (∃ r ∈ coalesce places, r.covers p = true) ↔
    p.column ≠ lastColumn ∧ ∃ place, some place ∈ places ∧ place.position = p := by
  simp only [← mem_coverable, ← (cuts_coalesce places).flatMap_positions, List.mem_flatMap,
    mem_positions]

/-- Away from the last column every run covers something. -/
theorem first_lt_stop (hcolumn : ∀ place, some place ∈ places → place.column ≠ lastColumn) :
    ∀ r ∈ coalesce places, r.first < r.stop := by
  intro r hr
  rcases (cuts_coalesce places).lt_or_mem_emptyRuns hr with hlt | hempty
  · exact hlt
  · obtain ⟨place, hplace, hlast, -⟩ := mem_emptyRuns.mp hempty
    exact absurd hlast (hcolumn place hplace)

/-- Coalescing is exact: written out one after the other, the runs give the places in their order
without those at the last column, for each of which there is a run of its own that is empty. It is
maximal: there is one run for each place at which one has to begin, and no way to cut the list has
fewer runs. No width underflows. -/
theorem coalesce_exact_maximal (places : List (Option Place)) :
    (coalesce places).flatMap positions = coverable places ∧
    (coalesce places).filter (fun r => decide (r.stop ≤ r.first)) = emptyRuns places ∧
    (∀ r ∈ coalesce places, r.first < r.stop ∨ r ∈ emptyRuns places) ∧
    (coalesce places).length = beginnings none places ∧
    (Cuts places (coalesce places) ∧
      ∀ runs, Cuts places runs → (coalesce places).length ≤ runs.length) ∧
    ∀ r ∈ coalesce places, r.first ≤ r.stop ∧ r.width.toNat = r.positions.length := by
  have hcuts := cuts_coalesce places
  refine ⟨hcuts.flatMap_positions, hcuts.filter_empty, ?_, length_coalesce places, ⟨hcuts, ?_⟩, ?_⟩
  · intro r hr
    exact hcuts.lt_or_mem_emptyRuns hr
  · intro runs h
    rw [length_coalesce]
    exact h.beginnings_le_length
  · intro r hr
    have hle := hcuts.first_le_stop hr
    exact ⟨hle, toNat_width hle⟩

end Provenance.Run

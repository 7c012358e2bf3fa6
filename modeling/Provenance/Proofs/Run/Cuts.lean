import Provenance.Run

/-!
# Cutting places into runs

A list of places is cut into runs by giving each found place a run of its own or joining it to the
run that begins with the place right behind it. Whichever places are joined, the runs written out
one after the other are the positions of the places in their order. A place at which a run has to
begin is never joined to the one before it, so there are at least as many runs as such places.

## Implementation notes

The end of a run is a column, so no run reaches over the last column. A place there has an empty run
of its own; `coverable` leaves it out. A miss between two places keeps their runs apart even where
one ends at the column at which the other begins.
-/

namespace Provenance.Run

/-! ## Positions -/

/-- The positions that a run covers, from left to right. -/
def positions (r : Run) : List Position :=
  (List.range' r.first.toNat (r.stop.toNat - r.first.toNat)).map fun column =>
    ⟨r.line, UInt32.ofNat column⟩

/-- The positions of those places that are not at the last column. -/
def coverable (places : List (Option Place)) : List Position :=
  places.filterMap fun place => (place.map Place.position).filter (·.column ≠ lastColumn)

/-- For each place at the last column, the run that cannot cover it. -/
def emptyRuns (places : List (Option Place)) : List Run :=
  (places.filterMap fun place => place.filter (·.column = lastColumn)).map fun place =>
    ⟨place.line, lastColumn, lastColumn⟩

section

variable {r : Run} {place : Place} {places : List (Option Place)}

@[simp] theorem coverable_none (places : List (Option Place)) :
    coverable (none :: places) = coverable places := rfl

@[simp] theorem coverable_some (place : Place) (places : List (Option Place)) :
    coverable (some place :: places) =
      if place.column = lastColumn then coverable places
      else place.position :: coverable places := by
  by_cases h : place.position.column = lastColumn <;>
    simp [coverable, Option.filter_some, h]

theorem mem_coverable {p : Position} :
    p ∈ coverable places ↔
      p.column ≠ lastColumn ∧ ∃ place, some place ∈ places ∧ place.position = p := by
  simp only [coverable, List.mem_filterMap, Option.filter_eq_some_iff, Option.map_eq_some_iff,
    decide_eq_true_eq]
  constructor
  · rintro ⟨_, hin, ⟨place, rfl, hposition⟩, hcolumn⟩
    exact ⟨hcolumn, place, hin, hposition⟩
  · rintro ⟨hcolumn, place, hin, hposition⟩
    exact ⟨some place, hin, ⟨place, rfl, hposition⟩, hcolumn⟩

@[simp] theorem emptyRuns_none (places : List (Option Place)) :
    emptyRuns (none :: places) = emptyRuns places := rfl

theorem emptyRuns_some_of_ne (h : place.column ≠ lastColumn) (places : List (Option Place)) :
    emptyRuns (some place :: places) = emptyRuns places := by
  simp [emptyRuns, Option.filter_some, h]

theorem emptyRuns_some_of_eq (h : place.column = lastColumn) (places : List (Option Place)) :
    emptyRuns (some place :: places) =
      single place.line place.column :: emptyRuns places := by
  simp [emptyRuns, Option.filter_some, single, h]

theorem mem_emptyRuns :
    r ∈ emptyRuns places ↔
      ∃ place, some place ∈ places ∧ place.column = lastColumn ∧
        r = ⟨place.line, lastColumn, lastColumn⟩ := by
  simp only [emptyRuns, List.mem_map, List.mem_filterMap, Option.filter_eq_some_iff,
    decide_eq_true_eq]
  constructor
  · rintro ⟨place, ⟨_, hin, rfl, hcolumn⟩, rfl⟩
    exact ⟨place, hin, hcolumn, rfl⟩
  · rintro ⟨place, hin, hcolumn, rfl⟩
    exact ⟨place, ⟨some place, hin, rfl, hcolumn⟩, rfl⟩

theorem mem_positions {p : Position} : p ∈ r.positions ↔ r.covers p = true := by
  have hcolumn := p.column.toNat_lt
  have hstop := r.stop.toNat_lt
  simp only [positions, covers, List.mem_map, List.mem_range'_1, decide_eq_true_eq,
    UInt32.le_iff_toNat_le, UInt32.lt_iff_toNat_lt]
  constructor
  · rintro ⟨column, hin, rfl⟩
    have hsize : UInt32.size = 4294967296 := rfl
    have hsmall : (UInt32.ofNat column).toNat = column := UInt32.toNat_ofNat_of_lt' (by omega)
    simp only [hsmall, true_and]
    omega
  · rintro ⟨hline, hfirst, hlt⟩
    refine ⟨p.column.toNat, by omega, ?_⟩
    rw [UInt32.ofNat_toNat, ← hline]

/-- The width of a run is the number of positions that it covers. -/
theorem toNat_width (h : r.first ≤ r.stop) : r.width.toNat = r.positions.length := by
  rw [width, UInt32.toNat_sub_of_le _ _ h, positions, List.length_map, List.length_range']

/-- A run that does not end where it begins covers its first position. -/
theorem covers_firstPosition (h : r.first < r.stop) : r.covers r.firstPosition = true := by
  simp [covers, firstPosition, h]

/-- The end of a column other than the last one is the next column. -/
theorem toNat_succ_column {column : UInt32} (h : column ≠ lastColumn) :
    (column + 1).toNat = column.toNat + 1 := by
  have hlt := column.toNat_lt
  have hne : column.toNat ≠ 4294967295 := fun heq => h (UInt32.toNat_inj.mp heq)
  rw [UInt32.toNat_add]
  exact Nat.mod_eq_of_lt (by simp; omega)

theorem first_lt_stop_single (line : UInt32) {column : UInt32} (h : column ≠ lastColumn) :
    (single line column).first < (single line column).stop := by
  simp only [single, if_neg h, UInt32.lt_iff_toNat_lt, toNat_succ_column h]
  exact Nat.lt_succ_self _

/-- A run of one column covers its position, unless that is at the last column. -/
theorem positions_single (p : Position) :
    (single p.line p.column).positions = if p.column = lastColumn then [] else [p] := by
  by_cases h : p.column = lastColumn
  · simp [positions, single, h]
  · simp [positions, single, h, toNat_succ_column h]

/-- A run that begins one column earlier covers that column first. -/
theorem positions_earlier {column : UInt32} (hcolumn : column.toNat + 1 = r.first.toNat)
    (h : r.first ≤ r.stop) :
    { r with first := column }.positions = ⟨r.line, column⟩ :: r.positions := by
  rw [UInt32.le_iff_toNat_le] at h
  have hlength : r.stop.toNat - column.toNat = r.stop.toNat - r.first.toNat + 1 := by omega
  simp only [positions, hlength, List.range'_succ, hcolumn, List.map_cons, UInt32.ofNat_toNat]

end

/-! ## Beginnings -/

/-- The second place is on the line of the first one, one column on. -/
def Adjoins (p q : Place) : Prop := p.line = q.line ∧ p.column.toNat + 1 = q.column.toNat

instance (p q : Place) : Decidable (Adjoins p q) :=
  inferInstanceAs (Decidable (p.line = q.line ∧ p.column.toNat + 1 = q.column.toNat))

/-- A run has to begin at the place, given what stands right before it in the list. -/
def Begins (before : Option Place) (place : Place) : Prop :=
  place.column = lastColumn ∨ ∀ p ∈ before, ¬ Adjoins p place

instance (before : Option Place) (place : Place) : Decidable (Begins before place) :=
  inferInstanceAs (Decidable (place.column = lastColumn ∨ ∀ p ∈ before, ¬ Adjoins p place))

/-- Number of places at which a run has to begin, in a list that stands behind another entry. -/
def beginnings (before : Option Place) (places : List (Option Place)) : Nat :=
  ((before :: places).zip places).countP fun entry =>
    entry.2.any fun place => decide (Begins entry.1 place)

/-- The runs are made of the found places in their order: each place has a run of its own or is
joined to the run that begins with the place right behind it. -/
inductive Cuts : List (Option Place) → List Run → Prop
  | nil : Cuts [] []
  | miss {places : List (Option Place)} {runs : List Run} (h : Cuts places runs) :
      Cuts (none :: places) runs
  | alone {places : List (Option Place)} {runs : List Run} (p : Place) (h : Cuts places runs) :
      Cuts (some p :: places) (single p.line p.column :: runs)
  | joined {places : List (Option Place)} {runs : List Run} {p q : Place} {r : Run}
      (hcolumn : q.column ≠ lastColumn) (hadjoins : Adjoins p q)
      (h : Cuts (some q :: places) (r :: runs)) :
      Cuts (some p :: some q :: places) ({ r with first := p.column } :: runs)

variable {p q : Place} {r : Run} {runs : List Run} {places : List (Option Place)}

@[simp] theorem beginnings_nil (before : Option Place) : beginnings before [] = 0 := rfl

@[simp] theorem beginnings_none (before : Option Place) (places : List (Option Place)) :
    beginnings before (none :: places) = beginnings none places := by
  simp [beginnings]

@[simp] theorem beginnings_some (before : Option Place) (p : Place)
    (places : List (Option Place)) :
    beginnings before (some p :: places) =
      beginnings (some p) places + if Begins before p then 1 else 0 := by
  simp [beginnings, List.countP_cons]

theorem begins_none (p : Place) : Begins none p := Or.inr nofun

theorem not_begins_some_iff :
    ¬ Begins (some p) q ↔ q.column ≠ lastColumn ∧ Adjoins p q := by
  simp [Begins]

/-- Nothing adjoins a place at the last column. -/
theorem Adjoins.column_ne (h : Adjoins p q) : p.column ≠ lastColumn := by
  intro hlast
  have hlt := q.column.toNat_lt
  have htop : p.column.toNat = 4294967295 := congrArg UInt32.toNat hlast
  have hnext := h.2
  omega

/-- Behind a miss there are no fewer beginnings than behind a place. -/
theorem beginnings_le (before : Option Place) (places : List (Option Place)) :
    beginnings before places ≤ beginnings none places := by
  cases places with
  | nil => simp
  | cons place places =>
      cases place with
      | none => simp
      | some p =>
          simp only [beginnings_some, begins_none, if_true]
          split <;> omega

/-! ## What all ways to cut a list have in common -/

namespace Cuts

/-- There are no fewer runs than beginnings. -/
theorem beginnings_le_length (h : Cuts places runs) : beginnings none places ≤ runs.length := by
  induction h with
  | nil => simp
  | miss _ ih => simpa using ih
  | @alone places runs p _ ih =>
      have hle := beginnings_le (some p) places
      simp only [beginnings_some, begins_none, if_true, List.length_cons]
      omega
  | joined hcolumn hadjoins _ ih =>
      have hjoined := not_begins_some_iff.mpr ⟨hcolumn, hadjoins⟩
      simpa [begins_none, hjoined] using ih

/-- The first run begins with the first place and covers it, unless that is at the last column. -/
theorem head_begins (h : Cuts (some p :: places) (r :: runs)) :
    r.line = p.line ∧ r.first = p.column ∧ (p.column ≠ lastColumn → r.first < r.stop) := by
  generalize hfound : some p :: places = found at h
  generalize hcut : r :: runs = cut at h
  induction h generalizing p places r runs with
  | nil => cases hfound
  | miss _ _ => cases hfound
  | alone p _ _ =>
      cases hfound
      cases hcut
      exact ⟨rfl, rfl, first_lt_stop_single p.line⟩
  | joined hcolumn hadjoins _ ih =>
      cases hfound
      cases hcut
      obtain ⟨hline, hfirst, hlt⟩ := ih rfl rfl
      refine ⟨hline.trans hadjoins.1.symm, rfl, fun _ => ?_⟩
      have hnext := hlt hcolumn
      rw [hfirst, UInt32.lt_iff_toNat_lt, ← hadjoins.2] at hnext
      rw [UInt32.lt_iff_toNat_lt]
      exact Nat.lt_of_succ_lt hnext

/-- Written out one after the other, the runs give the places that are not at the last column. -/
theorem flatMap_positions (h : Cuts places runs) : runs.flatMap positions = coverable places := by
  induction h with
  | nil => rfl
  | miss _ ih => rw [ih, coverable_none]
  | alone p _ ih =>
      rw [List.flatMap_cons, ih, positions_single p.position, coverable_some]
      split <;> rfl
  | @joined places runs p q r hcolumn hadjoins h ih =>
      obtain ⟨hline, hfirst, hlt⟩ := h.head_begins
      have hnext : p.column.toNat + 1 = r.first.toNat := by rw [hfirst, hadjoins.2]
      have hearlier := positions_earlier hnext (UInt32.le_of_lt (hlt hcolumn))
      rw [List.flatMap_cons] at ih
      rw [List.flatMap_cons, hearlier, List.cons_append, ih, coverable_some p,
        if_neg hadjoins.column_ne, hline, ← hadjoins.1]

/-- The runs that cover nothing are those of the places at the last column. -/
theorem filter_empty (h : Cuts places runs) :
    runs.filter (fun r => decide (r.stop ≤ r.first)) = emptyRuns places := by
  induction h with
  | nil => rfl
  | miss _ ih => rw [ih, emptyRuns_none]
  | alone p _ ih =>
      by_cases hp : p.column = lastColumn
      · have hempty : (single p.line p.column).stop ≤ (single p.line p.column).first := by
          simp [single, hp]
        rw [List.filter_cons_of_pos (by simpa using hempty), ih, emptyRuns_some_of_eq hp]
      · have hlt := UInt32.not_le.mpr (first_lt_stop_single p.line hp)
        rw [List.filter_cons_of_neg (by simpa using hlt), ih, emptyRuns_some_of_ne hp]
  | joined hcolumn hadjoins h ih =>
      -- Both the joined run and the one it grew from cover something.
      have hlt := h.head_begins.2.2 hcolumn
      have hjoined := (joined hcolumn hadjoins h).head_begins.2.2 hadjoins.column_ne
      rw [List.filter_cons_of_neg (by simpa using hlt)] at ih
      rw [List.filter_cons_of_neg (by simpa using hjoined), ih,
        emptyRuns_some_of_ne hadjoins.column_ne]

/-- A run covers something or is that of a place at the last column. -/
theorem lt_or_mem_emptyRuns (h : Cuts places runs) (hr : r ∈ runs) :
    r.first < r.stop ∨ r ∈ emptyRuns places := by
  by_cases hempty : r.stop ≤ r.first
  · right
    rw [← h.filter_empty, List.mem_filter]
    exact ⟨hr, decide_eq_true hempty⟩
  · left
    exact UInt32.not_le.mp hempty

/-- No run ends before it begins. -/
theorem first_le_stop (h : Cuts places runs) (hr : r ∈ runs) : r.first ≤ r.stop := by
  rcases h.lt_or_mem_emptyRuns hr with hlt | hempty
  · exact UInt32.le_of_lt hlt
  · obtain ⟨place, -, -, rfl⟩ := mem_emptyRuns.mp hempty
    exact UInt32.le_refl _

end Cuts

end Provenance.Run

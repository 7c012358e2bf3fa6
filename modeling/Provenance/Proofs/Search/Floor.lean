import Mathlib.Order.Bounds.Basic
import Provenance.Search

/-!
# Floor searches

A table that is sorted by a key is cut by binary search where the keys pass a bound. The entry
before the cut has the greatest key up to the bound, and cutting once more below that key finds
the first of the entries that share it.
-/

namespace Provenance

variable {α β : Type} [LinearOrder β] {key : α → β} {xs : Array α}

/-- The entries of a table stand in the order of their keys. -/
def SortedBy (key : α → β) (xs : Array α) : Prop :=
  xs.toList.Pairwise fun a b => key a ≤ key b

namespace SortedBy

theorem key_le (h : SortedBy key xs) {i j : Nat} (hij : i ≤ j) (hi : i < xs.size)
    (hj : j < xs.size) : key xs[i] ≤ key xs[j] := by
  rcases hij.eq_or_lt with heq | hlt
  · simp only [heq, le_refl]
  · have hle := List.pairwise_iff_getElem.mp h i j hi hj hlt
    rwa [Array.getElem_toList, Array.getElem_toList] at hle

/-- A property that passes to smaller keys cuts the table. -/
theorem partitioned (h : SortedBy key xs) {p : α → Bool}
    (hp : ∀ a b, key a ≤ key b → p b = true → p a = true) : Partitioned p xs := by
  intro i j hij hi hj hpj
  exact hp _ _ (h.key_le hij hi hj) hpj

/-- The cut at a bound counts the entries up to it. -/
theorem cut_le_spec (h : SortedBy key xs) (k : β) :
    partitionPoint (fun x => decide (key x ≤ k)) xs ≤ xs.size ∧
      ∀ i (hi : i < xs.size),
        key xs[i] ≤ k ↔ i < partitionPoint (fun x => decide (key x ≤ k)) xs := by
  have hp : Partitioned (fun x => decide (key x ≤ k)) xs := by
    apply h.partitioned
    intro a b hab hb
    exact decide_eq_true (hab.trans (of_decide_eq_true hb))
  simpa only [decide_eq_true_eq] using partitionPoint_spec hp

/-- The cut below a key counts the entries before it. -/
theorem cut_lt_spec (h : SortedBy key xs) (k : β) :
    partitionPoint (fun x => decide (key x < k)) xs ≤ xs.size ∧
      ∀ i (hi : i < xs.size),
        key xs[i] < k ↔ i < partitionPoint (fun x => decide (key x < k)) xs := by
  have hp : Partitioned (fun x => decide (key x < k)) xs := by
    apply h.partitioned
    intro a b hab hb
    exact decide_eq_true (hab.trans_lt (of_decide_eq_true hb))
  simpa only [decide_eq_true_eq] using partitionPoint_spec hp

/-- Nothing stands before the cut exactly if all keys are beyond the bound. -/
theorem cut_le_eq_zero_iff (h : SortedBy key xs) (k : β) :
    partitionPoint (fun x => decide (key x ≤ k)) xs = 0 ↔ ∀ x ∈ xs, k < key x := by
  obtain ⟨hsize, hcut⟩ := h.cut_le_spec k
  constructor
  · intro hzero x hx
    obtain ⟨i, hi, rfl⟩ := Array.mem_iff_getElem.mp hx
    rw [← not_le, hcut i hi]
    omega
  · intro hall
    by_contra hne
    have hi : 0 < xs.size := by omega
    have hle := (hcut 0 hi).mpr (Nat.pos_of_ne_zero hne)
    exact absurd (hall _ (Array.getElem_mem hi)) (not_lt_of_ge hle)

/-- The entry before the cut has the greatest key up to the bound. -/
theorem isGreatest_before_cut (h : SortedBy key xs) {k : β} {last : Nat}
    (hlast : partitionPoint (fun x => decide (key x ≤ k)) xs = last + 1) :
    ∃ hi : last < xs.size, IsGreatest {b | b ≤ k ∧ ∃ x ∈ xs, key x = b} (key xs[last]) := by
  obtain ⟨hsize, hcut⟩ := h.cut_le_spec k
  have hi : last < xs.size := by omega
  refine ⟨hi, ⟨(hcut last hi).mpr (by omega), xs[last], Array.getElem_mem hi, rfl⟩, ?_⟩
  rintro b ⟨hb, x, hx, rfl⟩
  obtain ⟨j, hj, rfl⟩ := Array.mem_iff_getElem.mp hx
  have hjl := (hcut j hj).mp hb
  exact h.key_le (by omega) hj hi

/-- The cut below a key that occurs leads to the first entry that has it. -/
theorem exists_first (h : SortedBy key xs) {x : α} (hx : x ∈ xs) :
    ∃ y, xs[partitionPoint (fun z => decide (key z < key x)) xs]? = some y ∧
      xs.toList.find? (fun z => decide (key z = key x)) = some y ∧ key y = key x := by
  obtain ⟨-, hcut⟩ := h.cut_lt_spec (key x)
  obtain ⟨i, hi, rfl⟩ := Array.mem_iff_getElem.mp hx
  have hle : partitionPoint (fun z => decide (key z < key xs[i])) xs ≤ i := by
    apply Nat.le_of_not_lt
    rw [← hcut i hi]
    exact lt_irrefl _
  generalize partitionPoint (fun z => decide (key z < key xs[i])) xs = first at hcut hle
  have hfirst : first < xs.size := by omega
  have heq : key xs[first] = key xs[i] := by
    apply le_antisymm (h.key_le hle hfirst hi)
    rw [← not_lt, hcut first hfirst]
    exact Nat.lt_irrefl first
  refine ⟨xs[first], Array.getElem?_eq_getElem hfirst, ?_, heq⟩
  rw [List.find?_eq_some_iff_getElem]
  refine ⟨decide_eq_true heq, first, by simpa using hfirst, by simp, ?_⟩
  intro j hj
  have hlt := (hcut j (by omega)).mpr hj
  simpa using ne_of_lt hlt

end SortedBy

end Provenance

/-!
# Partition points

A table whose entries first satisfy a property and then fail it is cut by binary search.
`partitionPoint_spec` says that the cut separates the two kinds.
-/

namespace Provenance

/-- Narrow the half-open interval from `lo` to `hi`; `fuel` bounds the number of halvings. -/
def narrow {α : Type} (p : α → Bool) (xs : Array α) : Nat → Nat → Nat → Nat
  | 0, lo, _ => lo
  | fuel + 1, lo, hi =>
    if lo < hi then
      let mid := lo + (hi - lo) / 2
      if (xs[mid]?).any p then narrow p xs fuel (mid + 1) hi else narrow p xs fuel lo mid
    else
      lo

/-- Number of entries at the front of the table that satisfy `p`. -/
def partitionPoint {α : Type} (p : α → Bool) (xs : Array α) : Nat :=
  narrow p xs xs.size 0 xs.size

/-- Every entry that satisfies `p` comes before every entry that does not. -/
def Partitioned {α : Type} (p : α → Bool) (xs : Array α) : Prop :=
  ∀ i j : Nat, i ≤ j → ∀ (hi : i < xs.size) (hj : j < xs.size), p xs[j] = true → p xs[i] = true

theorem narrow_spec {α : Type} {p : α → Bool} {xs : Array α} (hp : Partitioned p xs)
    (fuel lo hi : Nat) (hfuel : hi - lo ≤ fuel) (hle : lo ≤ hi) (hsize : hi ≤ xs.size)
    (below : ∀ i (h : i < xs.size), i < lo → p xs[i] = true)
    (above : ∀ i (h : i < xs.size), hi ≤ i → p xs[i] = false) :
    narrow p xs fuel lo hi ≤ xs.size ∧
      (∀ i (h : i < xs.size), p xs[i] = true ↔ i < narrow p xs fuel lo hi) := by
  have closed : ∀ n, n = lo → hi = lo → n ≤ xs.size ∧
      (∀ i (h : i < xs.size), p xs[i] = true ↔ i < n) := by
    rintro n rfl rfl
    refine ⟨hsize, fun i h => ⟨fun hpi => ?_, below i h⟩⟩
    apply Nat.lt_of_not_le
    intro hge
    simp [above i h hge] at hpi
  fun_induction narrow p xs fuel lo hi with
  | case1 lo hi => exact closed lo rfl (by omega)
  | case2 fuel lo hi hlt mid hmid ih =>
    have hm : mid < xs.size := by omega
    have hpm : p xs[mid] = true := by simpa [Array.getElem?_eq_getElem hm] using hmid
    have below' : ∀ i (h : i < xs.size), i < mid + 1 → p xs[i] = true := fun i h hi =>
      hp i mid (by omega) h hm hpm
    refine ih (by omega) (by omega) hsize below' above ?_
    rintro n rfl heq
    refine ⟨by omega, fun i h => ⟨fun hpi => ?_, below' i h⟩⟩
    apply Nat.lt_of_not_le
    intro hge
    simp [above i h (by omega)] at hpi
  | case3 fuel lo hi hlt mid hmid ih =>
    have hm : mid < xs.size := by omega
    have hpm : p xs[mid] = false := by simpa [Array.getElem?_eq_getElem hm] using hmid
    have above' : ∀ i (h : i < xs.size), mid ≤ i → p xs[i] = false := by
      intro i h hi
      cases hpi : p xs[i] with
      | false => rfl
      | true => simp [hp mid i hi hm h hpi] at hpm
    refine ih (by omega) (by omega) (by omega) below above' ?_
    rintro n rfl heq
    refine ⟨by omega, fun i h => ⟨fun hpi => ?_, below i h⟩⟩
    apply Nat.lt_of_not_le
    intro hge
    simp [above' i h (by omega)] at hpi
  | case4 fuel lo hi hlt => exact closed lo rfl (by omega)

/-- The partition point counts exactly the entries that satisfy the property. -/
theorem partitionPoint_spec {α : Type} {p : α → Bool} {xs : Array α} (hp : Partitioned p xs) :
    partitionPoint p xs ≤ xs.size ∧
      ∀ i (h : i < xs.size), p xs[i] = true ↔ i < partitionPoint p xs :=
  narrow_spec hp xs.size 0 xs.size (by omega) (by omega) (by omega)
    (fun _ _ h => absurd h (by omega)) (fun _ _ h => absurd h (by omega))

/-- A table that falls into entries with and without the property is cut between the two. -/
theorem partitionPoint_append {α : Type} {p : α → Bool} {xs ys : List α}
    (hx : ∀ x ∈ xs, p x = true) (hy : ∀ y ∈ ys, p y = false) :
    partitionPoint p (xs ++ ys).toArray = xs.length := by
  have hentry : ∀ i (h : i < (xs ++ ys).toArray.size),
      p (xs ++ ys).toArray[i] = true ↔ i < xs.length := by
    intro i h
    rw [List.getElem_toArray]
    by_cases hi : i < xs.length
    · rw [List.getElem_append_left hi]
      exact iff_of_true (hx _ (List.getElem_mem hi)) hi
    · rw [List.getElem_append_right (Nat.le_of_not_lt hi), hy _ (List.getElem_mem _)]
      exact iff_of_false Bool.false_ne_true hi
  have hp : Partitioned p (xs ++ ys).toArray := by
    intro i j hij hi hj hpj
    rw [hentry] at hpj ⊢
    omega
  obtain ⟨hle, hcut⟩ := partitionPoint_spec hp
  generalize partitionPoint p (xs ++ ys).toArray = cut at hle hcut
  have hsize : (xs ++ ys).toArray.size = xs.length + ys.length := by simp
  rcases Nat.lt_trichotomy cut xs.length with hlt | heq | hgt
  · have hcut' := (hcut cut (by omega)).mp ((hentry cut (by omega)).mpr hlt)
    exact absurd hcut' (Nat.lt_irrefl cut)
  · exact heq
  · have hlength := (hentry xs.length (by omega)).mp ((hcut xs.length (by omega)).mpr hgt)
    exact absurd hlength (Nat.lt_irrefl _)

end Provenance

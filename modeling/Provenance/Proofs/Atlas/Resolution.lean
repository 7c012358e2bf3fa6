import Mathlib.Order.Bounds.Basic
import Mathlib.Order.Nat
import Provenance.Atlas.Resolution

/-!
# What a file name refers to

A file name refers to the first source that is spelled like it, else to the first one that is
spelled like it behind the source root, else to the first one with the same last component. A source
of one of the first two kinds has the last component of the name, so a name refers to something
exactly if some source has its last component.

## Implementation notes

Sources are told by their indices, which count from 0. The number of a source is its index as a word
of 32 bits. Every number of a source is an index, so that the first source spelled like it has its
index as its number.
-/

namespace Provenance

/-! ## Last components -/

/-- What stands in front of an entry at which the search ends decides alone. -/
theorem takeWhile_append_cons_of_neg {α : Type} {p : α → Bool} {y : α} (hy : p y = false)
    (xs ys : List α) : (xs ++ y :: ys).takeWhile p = xs.takeWhile p := by
  induction xs with
  | nil => simp [hy]
  | cons x xs ih =>
      rw [List.cons_append]
      cases hx : p x with
      | false => simp [hx]
      | true => simp [hx, ih]

/-- What stands before a separator does not matter for the last component. -/
theorem lastComponent_of_toList {path rest : String} (before : List Char) {c : Char}
    (hc : isPathSeparator c = true) (h : path.toList = before ++ c :: rest.toList) :
    lastComponent path = lastComponent rest := by
  have hstop := takeWhile_append_cons_of_neg (p := fun x => !isPathSeparator x) (y := c)
    (by simp [hc]) rest.toList.reverse before.reverse
  rw [lastComponent, lastComponent, h, List.reverse_append, List.reverse_cons, List.append_assoc,
    List.singleton_append, hstop]

/-- A source behind a source root keeps its last component. -/
theorem lastComponent_joinRoot (root source : String) :
    lastComponent (joinRoot root source) = lastComponent source := by
  rw [joinRoot]
  split
  next hslash =>
    obtain ⟨before, hroot⟩ := List.getLast?_eq_some_iff.mp hslash
    apply lastComponent_of_toList before (c := '/') (by decide)
    rw [String.toList_append, hroot, List.append_assoc, List.singleton_append]
  next =>
    apply lastComponent_of_toList root.toList (c := '/') (by decide)
    rw [String.toList_append, String.toList_append, List.append_assoc]
    rfl

namespace Atlas

variable {a : Atlas} {name : String} {P Q : String → Prop} {i : Nat}

/-! ## Indices of sources -/

/-- The indices of the sources with a property. -/
def indices (a : Atlas) (P : String → Prop) : Set Nat := {i | ∃ s, a.sources[i]? = some s ∧ P s}

theorem nonempty_indices_iff : (a.indices P).Nonempty ↔ ∃ s ∈ a.sources, P s := by
  constructor
  · rintro ⟨i, s, hs, hp⟩
    exact ⟨s, Array.mem_of_getElem? hs, hp⟩
  · rintro ⟨s, hs, hp⟩
    obtain ⟨i, hi⟩ := Array.getElem?_of_mem hs
    exact ⟨i, s, hi, hp⟩

theorem indices_mono (h : ∀ s, P s → Q s) : a.indices P ⊆ a.indices Q := by
  rintro i ⟨s, hs, hp⟩
  exact ⟨s, hs, h s hp⟩

theorem exists_isLeast_indices (h : (a.indices P).Nonempty) : ∃ i, IsLeast (a.indices P) i := by
  classical
  exact ⟨Nat.find h, Nat.find_spec h, fun _ hj => Nat.find_min' h hj⟩

/-- An index is the least one if its source has the property and no source before it does. -/
theorem isLeast_indices_iff :
    IsLeast (a.indices P) i ↔
      (∃ s ∈ a.sources[i]?, P s) ∧ ∀ j < i, ∀ s ∈ a.sources[j]?, ¬ P s := by
  constructor
  · rintro ⟨hi, hmin⟩
    refine ⟨hi, ?_⟩
    intro j hj s hs hp
    exact absurd hj (not_lt_of_ge (hmin ⟨s, hs, hp⟩))
  · rintro ⟨hi, hbefore⟩
    refine ⟨hi, ?_⟩
    rintro j ⟨s, hs, hp⟩
    by_contra hlt
    exact hbefore j (not_le.mp hlt) s hs hp

variable [DecidablePred P]

/-- The search finds the least index of a source with the property. -/
theorem firstSource?_of_isLeast (h : IsLeast (a.indices P) i) :
    a.firstSource? (fun s => decide (P s)) = some (UInt32.ofNat i) := by
  obtain ⟨⟨s, hs, hp⟩, hbefore⟩ := isLeast_indices_iff.mp h
  have hfound : a.sources.toList.findIdx? (fun s => decide (P s)) = some i := by
    rw [List.findIdx?_eq_some_iff_getElem]
    obtain ⟨hi, rfl⟩ := Array.getElem?_eq_some_iff.mp hs
    refine ⟨by simpa using hi, by simpa using hp, ?_⟩
    intro j hj
    have hnot := hbefore j hj _ (Array.getElem?_eq_getElem (hj.trans hi))
    simpa using hnot
  rw [firstSource?, hfound, Option.map_some]

theorem firstSource?_eq_none_iff :
    a.firstSource? (fun s => decide (P s)) = none ↔ a.indices P = ∅ := by
  constructor
  · intro h
    by_contra hne
    obtain ⟨i, hi⟩ := exists_isLeast_indices (Set.nonempty_iff_ne_empty.mpr hne)
    rw [firstSource?_of_isLeast hi] at h
    cases h
  · intro h
    rw [firstSource?, Option.map_eq_none_iff, List.findIdx?_eq_none_iff]
    intro s hs
    rw [decide_eq_false_iff_not]
    intro hp
    have hnonempty := nonempty_indices_iff.mpr ⟨s, Array.mem_toList_iff.mp hs, hp⟩
    exact absurd h hnonempty.ne_empty

/-! ## Resolution -/

/-- The source is spelled like the name behind a source root that is not empty. -/
def Rooted (a : Atlas) (name source : String) : Prop :=
  ∃ root ∈ a.sourceRoot, root ≠ "" ∧ joinRoot root source = name

instance (a : Atlas) (name : String) : DecidablePred (a.Rooted name) := fun source =>
  inferInstanceAs (Decidable (∃ root ∈ a.sourceRoot, root ≠ "" ∧ joinRoot root source = name))

/-- The source has the last component of the name. -/
def Alike (name source : String) : Prop := lastComponent source = lastComponent name

instance (name : String) : DecidablePred (Alike name) := fun source =>
  inferInstanceAs (Decidable (lastComponent source = lastComponent name))

theorem Rooted.alike {source : String} (h : a.Rooted name source) : Alike name source := by
  obtain ⟨root, -, -, rfl⟩ := h
  exact (lastComponent_joinRoot root source).symm

theorem firstSource?_rooted {root : String} (hroot : a.sourceRoot = some root)
    (hne : root ≠ "") :
    (a.firstSource? fun s => decide (a.Rooted name s)) =
      a.firstSource? fun s => decide (joinRoot root s = name) := by
  congr 1
  funext s
  simp [Rooted, hroot, hne]

theorem firstSource?_unrooted (h : ∀ root ∈ a.sourceRoot, root = "") :
    (a.firstSource? fun s => decide (a.Rooted name s)) = none := by
  rw [firstSource?_eq_none_iff, Set.eq_empty_iff_forall_notMem]
  rintro i ⟨s, -, root, hroot, hne, -⟩
  exact hne (h root hroot)

/-- A name is looked for three times, each time less specifically. -/
theorem resolve?_eq (a : Atlas) (name : String) :
    a.resolve? name =
      (a.firstSource? fun s => decide (s = name)).or
        ((a.firstSource? fun s => decide (a.Rooted name s)).or
          (a.firstSource? fun s => decide (Alike name s))) := by
  simp only [resolve?, beq_eq_decide, Option.or_eq_orElse, Alike]
  cases hroot : a.sourceRoot with
  | none =>
      rw [firstSource?_unrooted (by simp [hroot])]
      rfl
  | some root =>
      by_cases hempty : root = ""
      · rw [firstSource?_unrooted (by simp [hroot, hempty])]
        simp only [if_pos hempty]
        rfl
      · rw [firstSource?_rooted hroot hempty]
        simp only [if_neg hempty]
        rfl

/-- A source with the last component of a name is enough for the name to refer to something. -/
theorem isSome_resolve?_iff (a : Atlas) (name : String) :
    (a.resolve? name).isSome = true ↔ (a.indices (Alike name)).Nonempty := by
  have hspelled : a.indices (· = name) ⊆ a.indices (Alike name) := by
    apply indices_mono
    rintro s rfl
    rfl
  have hrooted : a.indices (a.Rooted name) ⊆ a.indices (Alike name) :=
    indices_mono fun _ hs => hs.alike
  rw [← not_iff_not, Option.not_isSome_iff_eq_none, resolve?_eq, Option.or_eq_none_iff,
    Option.or_eq_none_iff, firstSource?_eq_none_iff, firstSource?_eq_none_iff,
    firstSource?_eq_none_iff, Set.not_nonempty_iff_eq_empty]
  constructor
  · rintro ⟨-, -, halike⟩
    exact halike
  · intro halike
    rw [halike, Set.subset_empty_iff] at hspelled hrooted
    exact ⟨hspelled, hrooted, halike⟩

/-- A file name refers to something exactly if some source has its last component. It refers to the
first source that is spelled like it; if there is none, to the first one spelled like it behind the
source root; and if there is none of these either, to the first one with its last component. The
spelling of a source refers to the first source that is spelled so. -/
theorem resolve?_most_specific (a : Atlas) (name : String) :
    ((a.resolve? name).isSome = true ↔
      ∃ s ∈ a.sources, lastComponent s = lastComponent name) ∧
    (∀ i, IsLeast (a.indices (· = name)) i → a.resolve? name = some (UInt32.ofNat i)) ∧
    (∀ i, a.indices (· = name) = ∅ → IsLeast (a.indices (a.Rooted name)) i →
      a.resolve? name = some (UInt32.ofNat i)) ∧
    (∀ i, a.indices (· = name) = ∅ → a.indices (a.Rooted name) = ∅ →
      IsLeast (a.indices (Alike name)) i → a.resolve? name = some (UInt32.ofNat i)) ∧
    ∀ id s, a.source? id = some s →
      ∃ first, a.resolve? s = some first ∧ IsLeast (a.indices (· = s)) first.toNat := by
  refine ⟨?_, ?_, ?_, ?_, ?_⟩
  · rw [isSome_resolve?_iff, nonempty_indices_iff]
    rfl
  · intro i hi
    rw [resolve?_eq, firstSource?_of_isLeast hi, Option.some_or]
  · intro i hspelled hi
    rw [resolve?_eq, firstSource?_eq_none_iff.mpr hspelled, firstSource?_of_isLeast hi,
      Option.none_or, Option.some_or]
  · intro i hspelled hrooted hi
    rw [resolve?_eq, firstSource?_eq_none_iff.mpr hspelled, firstSource?_eq_none_iff.mpr hrooted,
      firstSource?_of_isLeast hi, Option.none_or, Option.none_or]
  · intro id s hs
    have hmem : id.toNat ∈ a.indices (· = s) := ⟨s, hs, rfl⟩
    obtain ⟨first, hfirst⟩ := exists_isLeast_indices ⟨_, hmem⟩
    have hlt : first < UInt32.size := (hfirst.2 hmem).trans_lt id.toNat_lt
    refine ⟨UInt32.ofNat first, ?_, ?_⟩
    · rw [resolve?_eq, firstSource?_of_isLeast hfirst, Option.some_or]
    · rw [UInt32.toNat_ofNat_of_lt' hlt]
      exact hfirst

/-- An atlas whose sources share last components; two of them are spelled alike. -/
def namesakes : Atlas where
  sources := #["lib/a.ts", "src/a.ts", "a.ts", "src/a.ts", "old\\b.ts"]
  sourceRoot := some "out"
  contents := #[]
  names := #[]
  segments := #[]
  origins := #[]

theorem resolve?_most_specific_namesakes :
    namesakes.resolve? "src/a.ts" = some 1 ∧
    namesakes.resolve? "out/a.ts" = some 2 ∧
    namesakes.resolve? "new/b.ts" = some 4 ∧
    namesakes.resolve? "c.ts" = none ∧
    ∃ first, namesakes.resolve? "src/a.ts" = some first ∧
      IsLeast (namesakes.indices (· = "src/a.ts")) first.toNat := by
  obtain ⟨-, hspelled, -, -, hsource⟩ := resolve?_most_specific namesakes "src/a.ts"
  obtain ⟨-, -, hrooted, -⟩ := resolve?_most_specific namesakes "out/a.ts"
  obtain ⟨-, -, -, halike, -⟩ := resolve?_most_specific namesakes "new/b.ts"
  obtain ⟨hsome, -⟩ := resolve?_most_specific namesakes "c.ts"
  refine ⟨hspelled 1 (isLeast_indices_iff.mpr (by decide)), ?_, ?_, ?_,
    hsource 3 "src/a.ts" rfl⟩
  · apply hrooted 2
    · rw [← Set.not_nonempty_iff_eq_empty, nonempty_indices_iff]
      decide
    · exact isLeast_indices_iff.mpr (by decide)
  · apply halike 4
    · rw [← Set.not_nonempty_iff_eq_empty, nonempty_indices_iff]
      decide
    · rw [← Set.not_nonempty_iff_eq_empty, nonempty_indices_iff]
      decide
    · exact isLeast_indices_iff.mpr (by decide)
  · rw [← Option.not_isSome_iff_eq_none, hsome]
    decide

end Atlas

end Provenance

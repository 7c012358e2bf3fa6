import Mathlib.Order.Defs.LinearOrder
import Provenance.Position
import Provenance.Power

/-!
# Positions and places in linear order

Reading line and column as the digits of one number turns the order of positions into the
order of natural numbers, and the source in front of them does the same for places.

## Implementation notes

The instances below keep the comparisons of `Provenance.Position` as their own, so that facts
about linear orders apply to the tests that lookups perform.
-/

namespace Provenance

/-- Data that is compared as its numbers are is in linear order. -/
abbrev linearOrderOfRank {α : Type} [LE α] [LT α] [DecidableLE α] [DecidableLT α] [DecidableEq α]
    (rank : α → Nat) (le_iff : ∀ a b : α, a ≤ b ↔ rank a ≤ rank b)
    (lt_iff : ∀ a b : α, a < b ↔ rank a < rank b)
    (inj : ∀ a b : α, rank a = rank b ↔ a = b) : LinearOrder α where
  le_refl a := (le_iff a a).mpr (Nat.le_refl _)
  le_trans a b c := by
    simp only [le_iff]
    exact Nat.le_trans
  le_antisymm a b := by
    simp only [le_iff, ← inj]
    exact Nat.le_antisymm
  le_total a b := by
    simp only [le_iff]
    exact Nat.le_total _ _
  lt_iff_le_not_ge a b := by
    simp only [lt_iff, le_iff]
    exact Nat.lt_iff_le_and_not_ge
  toDecidableLE := inferInstance
  toDecidableLT := inferInstance
  toDecidableEq := inferInstance

namespace Position

/-- Line and column as one number. -/
def rank (p : Position) : Nat := p.line.toNat * 2 ^ 32 + p.column.toNat

theorem rank_lt (p : Position) : p.rank < 2 ^ 64 := by
  have hl := p.line.toNat_lt
  have hc := p.column.toNat_lt
  simp only [rank]
  omega

/-- Positions are compared as their numbers are. -/
theorem le_iff_rank_le {a b : Position} : a ≤ b ↔ a.rank ≤ b.rank := by
  have ha := a.column.toNat_lt
  have hb := b.column.toNat_lt
  simp only [le_def, rank, UInt32.lt_iff_toNat_lt, UInt32.le_iff_toNat_le, ← UInt32.toNat_inj]
  omega

theorem lt_iff_rank_lt {a b : Position} : a < b ↔ a.rank < b.rank := by
  have ha := a.column.toNat_lt
  have hb := b.column.toNat_lt
  simp only [lt_def, rank, UInt32.lt_iff_toNat_lt, ← UInt32.toNat_inj]
  omega

theorem rank_inj {a b : Position} : a.rank = b.rank ↔ a = b := by
  constructor
  · intro h
    have ha := a.column.toNat_lt
    have hb := b.column.toNat_lt
    obtain ⟨la, ca⟩ := a
    obtain ⟨lb, cb⟩ := b
    simp only [rank] at h ha hb
    simp only [mk.injEq, ← UInt32.toNat_inj]
    omega
  · rintro rfl
    rfl

instance : LinearOrder Position :=
  { linearOrderOfRank rank (fun _ _ => le_iff_rank_le) (fun _ _ => lt_iff_rank_lt)
      (fun _ _ => rank_inj) with
    toMin := inferInstance
    toMax := inferInstance }

/-- Within one line, positions are compared by column. -/
theorem mk_le_mk {line c d : UInt32} : (⟨line, c⟩ : Position) ≤ ⟨line, d⟩ ↔ c ≤ d := by
  simp only [le_def, UInt32.lt_irrefl, true_and, false_or]

theorem line_le_of_le {a b : Position} (h : a ≤ b) : a.line ≤ b.line := by
  rcases h with hlt | ⟨heq, -⟩
  · exact UInt32.le_of_lt hlt
  · exact UInt32.le_of_eq heq

/-- A position between two positions of one line is on that line. -/
theorem line_eq_of_between {a b c : Position} (hab : a ≤ b) (hbc : b ≤ c)
    (hac : a.line = c.line) : b.line = c.line := by
  simp only [le_def, UInt32.lt_iff_toNat_lt, ← UInt32.toNat_inj] at hab hbc hac ⊢
  omega

end Position

namespace Place

/-- Source, line and column as one number. -/
def rank (p : Place) : Nat := p.source.toNat * 2 ^ 64 + p.position.rank

/-- Places are compared as their numbers are. -/
theorem le_iff_rank_le {a b : Place} : a ≤ b ↔ a.rank ≤ b.rank := by
  have ha := a.position.rank_lt
  have hb := b.position.rank_lt
  simp only [le_def, rank, Position.le_iff_rank_le, UInt32.lt_iff_toNat_lt,
    ← UInt32.toNat_inj]
  omega

theorem lt_iff_rank_lt {a b : Place} : a < b ↔ a.rank < b.rank := by
  have ha := a.position.rank_lt
  have hb := b.position.rank_lt
  simp only [lt_def, rank, Position.lt_iff_rank_lt, UInt32.lt_iff_toNat_lt,
    ← UInt32.toNat_inj]
  omega

theorem rank_inj {a b : Place} : a.rank = b.rank ↔ a = b := by
  constructor
  · intro h
    have ha := a.position.rank_lt
    have hb := b.position.rank_lt
    obtain ⟨sa, pa⟩ := a
    obtain ⟨sb, pb⟩ := b
    simp only [rank] at h ha hb
    simp only [mk.injEq, ← UInt32.toNat_inj, ← Position.rank_inj]
    omega
  · rintro rfl
    rfl

instance : LinearOrder Place :=
  linearOrderOfRank rank (fun _ _ => le_iff_rank_le) (fun _ _ => lt_iff_rank_lt)
    (fun _ _ => rank_inj)

/-- Within one source, places are compared by position. -/
@[simp] theorem mk_le_mk {source : UInt32} {p q : Position} :
    (⟨source, p⟩ : Place) ≤ ⟨source, q⟩ ↔ p ≤ q := by
  simp only [le_def, UInt32.lt_irrefl, true_and, false_or]

/-- A place between two places of one source is of that source. -/
theorem source_eq_of_between {a b c : Place} (hab : a ≤ b) (hbc : b ≤ c)
    (hac : a.source = c.source) : b.source = c.source := by
  simp only [le_def, UInt32.lt_iff_toNat_lt, ← UInt32.toNat_inj] at hab hbc hac ⊢
  omega

end Place

end Provenance

import Provenance.Binary64.Shortest
import Provenance.Proofs.Text.Decimal

/-!
# Shortest decimal forms are not zero

The shortest decimal form of a finite number other than zero has a digit other than zero
(`shortest_digits_ne_zero`), so that its digits do not begin with a zero.

## Implementation notes

The search begins on the grid of the first digit of the number and goes on to finer ones. On each of
these grids the lower neighbour of the number is not zero yet, so it does not matter on which grid
the search ends.
-/

namespace Provenance.Binary64

open Provenance.Text (decimal length_decimal_pos lt_pow_length_decimal pow_length_decimal_le)

variable {num den : Nat} {e e' : Int} {x : Binary64}

/-- The quotient is at least a power of ten. -/
def Reaches (num den : Nat) (e : Int) : Prop :=
  if 0 ≤ e then den * 10 ^ e.toNat ≤ num else den ≤ num * 10 ^ (-e).toNat

theorem Reaches.of_le (h : Reaches num den e) (hle : e' ≤ e) : Reaches num den e' := by
  unfold Reaches at h ⊢
  split at h
  · split
    · have hpow : 10 ^ e'.toNat ≤ 10 ^ e.toNat := Nat.pow_le_pow_right (by decide) (by omega)
      exact Nat.le_trans (Nat.mul_le_mul_left den hpow) h
    · calc
        den ≤ den * 10 ^ e.toNat := Nat.le_mul_of_pos_right den (Nat.pow_pos (by decide))
        _ ≤ num := h
        _ ≤ num * 10 ^ (-e').toNat := Nat.le_mul_of_pos_right num (Nat.pow_pos (by decide))
  · rw [if_neg (by omega)]
    have hpow : 10 ^ (-e).toNat ≤ 10 ^ (-e').toNat := Nat.pow_le_pow_right (by decide) (by omega)
    exact Nat.le_trans h (Nat.mul_le_mul_left num hpow)

/-- The exponent at which the search begins is that of the first digit. -/
theorem reaches_decimalExponent (hnum : 0 < num) (hden : 0 < den) :
    Reaches num den (decimalExponent num den) := by
  rw [decimalExponent]
  split
  · rename_i hle
    have hquotient : num / den ≠ 0 := Nat.ne_zero_of_lt (Nat.div_pos hle hden)
    have hwidth : 0 < Decimal.width (num / den) := length_decimal_pos _
    rw [Reaches, if_pos (by omega), show ((Decimal.width (num / den) : Int) - 1).toNat =
      Decimal.width (num / den) - 1 by omega]
    have hpow : 10 ^ (Decimal.width (num / den) - 1) ≤ num / den :=
      pow_length_decimal_le hquotient
    exact Nat.le_trans (Nat.mul_le_mul_left den hpow) (Nat.mul_div_le num den)
  · rename_i hlt
    have hwidth : 0 < Decimal.width (den / num) := length_decimal_pos _
    dsimp only
    generalize hk : Decimal.width (den / num) = k at hwidth
    split
    · rename_i hle
      have hk1 : k ≠ 1 := by
        rintro rfl
        exact hlt (by simpa using hle)
      rw [Reaches, if_neg (by omega), show (-(1 - (k : Int))).toNat = k - 1 by omega]
      exact hle
    · rw [Reaches, if_neg (by omega), show (-(-(k : Int))).toNat = k by omega]
      have hpow : den / num < 10 ^ k := hk ▸ lt_pow_length_decimal (den / num)
      rw [Nat.mul_comm]
      exact Nat.le_of_lt ((Nat.div_lt_iff_lt_mul hnum).mp hpow)

/-- Where the quotient reaches a step of the grid, its lower neighbour is not zero. -/
theorem lower_neighbour_ne_zero (hden : 0 < den) (h : Reaches num den e) :
    (neighbours num den e).1.digits ≠ 0 := by
  unfold Reaches at h
  unfold neighbours
  split at h
  · rename_i he
    rw [if_pos he]
    exact Nat.ne_zero_of_lt (Nat.div_pos h (Nat.mul_pos hden (Nat.pow_pos (by decide))))
  · rename_i he
    rw [if_neg he]
    exact Nat.ne_zero_of_lt (Nat.div_pos h hden)

theorem upper_neighbour_ne_zero (num den : Nat) (e : Int) :
    (neighbours num den e).2.digits ≠ 0 := Nat.succ_ne_zero _

theorem nearer_eq (num den : Nat) (lower upper : Decimal) :
    nearer num den lower upper = lower ∨ nearer num den lower upper = upper := by
  unfold nearer
  dsimp only
  split
  · exact Or.inl rfl
  · split
    · exact Or.inr rfl
    · split
      · exact Or.inl rfl
      · exact Or.inr rfl

/-- The search finds a neighbour of the quotient on some grid. -/
theorem shortestFrom_digits_ne_zero (x : Binary64) (hden : 0 < den) (fuel : Nat)
    (h : Reaches num den e) : (shortestFrom x num den fuel e).digits ≠ 0 := by
  have hlower := lower_neighbour_ne_zero hden h
  have hupper := upper_neighbour_ne_zero num den e
  induction fuel generalizing e with
  | zero => exact hlower
  | succ fuel ih =>
      have hfiner := h.of_le (Int.sub_le_self e (by decide : (0 : Int) ≤ 1))
      have hrest : (shortestFrom x num den fuel (e - 1)).digits ≠ 0 :=
        ih hfiner (lower_neighbour_ne_zero hden hfiner) (upper_neighbour_ne_zero num den _)
      rw [shortestFrom]
      generalize neighbours num den e = found at hlower hupper
      obtain ⟨lower, upper⟩ := found
      dsimp only at hlower hupper ⊢
      split
      · rcases nearer_eq num den lower upper with hnearer | hnearer
        · rwa [hnearer]
        · rwa [hnearer]
      · exact hlower
      · exact hupper
      · exact hrest

/-- Only zeros at the end are removed. -/
theorem reduce_digits_ne_zero (fuel : Nat) {d : Decimal} (h : d.digits ≠ 0) :
    (d.reduce fuel).digits ≠ 0 := by
  induction fuel generalizing d with
  | zero => exact h
  | succ fuel ih =>
      rw [Decimal.reduce]
      split
      · refine ih ?_
        dsimp only
        omega
      · exact h

theorem mantissa_pos (h : x.isZero = false) : 0 < x.mantissa := by
  have hzero : ¬ (x.mantissa = 0 ∧ x.exponentField = 0) := of_decide_eq_false h
  by_contra hmantissa
  refine hzero ⟨by omega, ?_⟩
  by_contra hexponent
  rw [mantissa, if_neg hexponent] at hmantissa
  omega

/-- The magnitude of a number other than zero is a quotient of positive numbers. -/
theorem fraction_pos (h : x.isZero = false) : 0 < x.fraction.1 ∧ 0 < x.fraction.2 := by
  have hmantissa := mantissa_pos h
  unfold fraction
  split
  · exact ⟨Nat.mul_pos hmantissa (Nat.pow_pos (by decide)), Nat.one_pos⟩
  · exact ⟨hmantissa, Nat.pow_pos (by decide)⟩

/-- The shortest form of a number other than zero has digits other than zero. -/
theorem shortest_digits_ne_zero (h : x.isZero = false) : x.shortest.digits ≠ 0 := by
  obtain ⟨hnum, hden⟩ := fraction_pos h
  exact reduce_digits_ne_zero _
    (shortestFrom_digits_ne_zero _ hden _ (reaches_decimalExponent hnum hden))

end Provenance.Binary64

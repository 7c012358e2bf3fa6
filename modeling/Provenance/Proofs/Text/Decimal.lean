import Mathlib.Tactic.ByContra
import Provenance.Text.Decimal

/-!
# Digits of decimal numbers

A number written in decimal has at least one digit, consists of digits only and begins with a zero
only if it is zero. Its digits, read from the left, give the number back. What is read as a number
are digits with an optional plus sign before them, in any number, as long as their value stays
within the bound.
-/

namespace Provenance.Text

variable {c : Char} {n d : Nat}

theorem isSome_digit?_iff : (digit? c).isSome = true ↔ c.isDigit = true := by
  rw [digit?]
  split
  · rename_i h
    exact iff_of_true rfl (by simpa [Char.isDigit, Char.le_def] using h)
  · rename_i h
    exact iff_of_false Bool.false_ne_true (by simpa [Char.isDigit, Char.le_def] using h)

theorem digit?_of_isDigit (h : c.isDigit = true) : digit? c = some (c.toNat - '0'.toNat) := by
  obtain ⟨d, hd⟩ := Option.isSome_iff_exists.mp (isSome_digit?_iff.mpr h)
  rw [hd]
  rw [digit?] at hd
  split at hd
  · exact hd.symm
  · cases hd

/-- The number that some digits continue a number to. -/
def ofDigits (value : Nat) (cs : List Char) : Nat :=
  cs.foldl (fun v c => v * 10 + (digit? c).getD 0) value

theorem decimal_ne_nil (n : Nat) : decimal n ≠ [] := Nat.toDigits_ne_nil

theorem isDigit_of_mem_decimal (h : c ∈ decimal n) : c.isDigit = true :=
  Nat.isDigit_of_mem_toDigits (by decide) (by decide) h

theorem ofDigits_of_isDigit (value : Nat) {cs : List Char} (h : ∀ c ∈ cs, c.isDigit = true) :
    ofDigits value cs = Nat.ofDigitChars 10 cs value := by
  induction cs generalizing value with
  | nil => rfl
  | cons c cs ih =>
      have hstep : value * 10 + (digit? c).getD 0 = 10 * value + (c.toNat - '0'.toNat) := by
        rw [digit?_of_isDigit (h c List.mem_cons_self), Nat.mul_comm]
        rfl
      rw [Nat.ofDigitChars_cons, ← hstep]
      exact ih _ fun c' hc' => h c' (List.mem_cons_of_mem c hc')

/-- A number is read back from its digits. -/
theorem ofDigits_decimal (n : Nat) : ofDigits 0 (decimal n) = n := by
  rw [ofDigits_of_isDigit 0 fun c hc => isDigit_of_mem_decimal hc]
  exact Nat.ofDigitChars_ten_toDigits

/-- Only zero begins with a zero. -/
theorem head?_decimal (hn : n ≠ 0) : (decimal n).head? ≠ some '0' := by
  induction n using Nat.strongRecOn with
  | _ n ih =>
      rw [decimal]
      by_cases hlt : n < 10
      · rw [Nat.toDigits_of_lt_base hlt, List.head?_cons, Ne, Option.some.injEq,
          Nat.digitChar_eq_zero]
        exact hn
      · have hne : decimal (n / 10) ≠ [] := decimal_ne_nil _
        rw [Nat.toDigits_of_base_le (by decide) (by omega)]
        change (decimal (n / 10) ++ _).head? ≠ _
        rw [List.head?_append, Option.or_of_isSome (List.isSome_head?.mpr hne)]
        exact ih (n / 10) (by omega) (by omega)

theorem decimal_zero : decimal 0 = ['0'] := Nat.toDigits_zero 10

/-! ## How many digits -/

theorem length_decimal_pos (n : Nat) : 0 < (decimal n).length := Nat.length_toDigits_pos

/-- A number is below the power of ten that its digits are counted by. -/
theorem lt_pow_length_decimal (n : Nat) : n < 10 ^ (decimal n).length :=
  (Nat.length_toDigits_le_iff (by decide) (length_decimal_pos n)).mp (Nat.le_refl _)

/-- A number other than zero reaches the power of ten of its first digit. -/
theorem pow_length_decimal_le (hn : n ≠ 0) : 10 ^ ((decimal n).length - 1) ≤ n := by
  by_cases hone : (decimal n).length = 1
  · rw [hone]
    exact Nat.one_le_iff_ne_zero.mpr hn
  · have hpos := length_decimal_pos n
    by_contra hlt
    have hle : (decimal n).length ≤ (decimal n).length - 1 :=
      (Nat.length_toDigits_le_iff (by decide) (by omega)).mpr (Nat.lt_of_not_le hlt)
    omega

/-! ## Reading -/

/-- The text is a number in decimal: an optional plus sign and at least one digit. -/
def IsDecimal (cs : List Char) (n : Nat) : Prop :=
  ∃ sign digits, cs = sign ++ digits ∧ (sign = [] ∨ sign = ['+']) ∧ digits ≠ [] ∧
    (∀ c ∈ digits, c.isDigit = true) ∧ Nat.ofDigitChars 10 digits 0 = n

theorem isDecimal_decimal (n : Nat) : IsDecimal (decimal n) n :=
  ⟨[], decimal n, rfl, Or.inl rfl, decimal_ne_nil n, fun _ hc => isDigit_of_mem_decimal hc,
    Nat.ofDigitChars_ten_toDigits⟩

/-- Behind a plus sign there are digits only. -/
theorem isDecimal_plus_iff {cs : List Char} : IsDecimal ('+' :: cs) n ↔
    cs ≠ [] ∧ (∀ c ∈ cs, c.isDigit = true) ∧ Nat.ofDigitChars 10 cs 0 = n := by
  constructor
  · rintro ⟨sign, digits, hcs, rfl | rfl, hne, hdigits, hvalue⟩
    · rw [List.nil_append] at hcs
      have hplus : '+'.isDigit = true := hdigits '+' (hcs ▸ List.mem_cons_self)
      exact absurd hplus (by decide)
    · obtain rfl : cs = digits := (List.cons.inj hcs).2
      exact ⟨hne, hdigits, hvalue⟩
  · rintro ⟨hne, hdigits, hvalue⟩
    exact ⟨['+'], cs, rfl, Or.inr rfl, hne, hdigits, hvalue⟩

/-- Without a plus sign there are digits only. -/
theorem isDecimal_iff_of_head? {cs : List Char} (h : cs.head? ≠ some '+') : IsDecimal cs n ↔
    cs ≠ [] ∧ (∀ c ∈ cs, c.isDigit = true) ∧ Nat.ofDigitChars 10 cs 0 = n := by
  constructor
  · rintro ⟨sign, digits, rfl, rfl | rfl, hne, hdigits, hvalue⟩
    · exact ⟨hne, hdigits, hvalue⟩
    · exact absurd rfl h
  · rintro ⟨hne, hdigits, hvalue⟩
    exact ⟨[], cs, rfl, Or.inl rfl, hne, hdigits, hvalue⟩

/-- A number does not get smaller by more digits. -/
theorem le_ofDigits (value : Nat) (cs : List Char) : value ≤ ofDigits value cs := by
  induction cs generalizing value with
  | nil => exact Nat.le_refl value
  | cons c cs ih =>
      calc
        value ≤ value * 10 + (digit? c).getD 0 := by omega
        _ ≤ ofDigits value (c :: cs) := ih _

/-- More digits are read exactly if the whole number stays within the bound: no number on the way to
it is greater. -/
theorem readDigits_eq_ok_iff {bound value n : Nat} {cs : List Char} (hvalue : value ≤ bound) :
    readDigits bound value cs = .ok n ↔
      (∀ c ∈ cs, c.isDigit = true) ∧ ofDigits value cs = n ∧ n ≤ bound := by
  induction cs generalizing value with
  | nil =>
      constructor
      · intro h
        obtain rfl : value = n := Except.ok.inj h
        exact ⟨nofun, rfl, hvalue⟩
      · rintro ⟨-, rfl, -⟩
        rfl
  | cons c cs ih =>
      rw [readDigits, List.forall_mem_cons]
      by_cases hdigit : c.isDigit = true
      · have hstep : ofDigits value (c :: cs) =
            ofDigits (value * 10 + (c.toNat - '0'.toNat)) cs := by
          rw [ofDigits, List.foldl_cons, digit?_of_isDigit hdigit]
          rfl
        rw [digit?_of_isDigit hdigit, hstep]
        dsimp only
        by_cases hlarge : bound < value * 10 + (c.toNat - '0'.toNat)
        · rw [if_pos hlarge]
          refine iff_of_false nofun ?_
          rintro ⟨-, rfl, hbound⟩
          exact Nat.not_le_of_lt hlarge (Nat.le_trans (le_ofDigits _ cs) hbound)
        · rw [if_neg hlarge, ih (Nat.le_of_not_lt hlarge)]
          simp only [hdigit, true_and]
      · have hnone : digit? c = none :=
          Option.not_isSome_iff_eq_none.mp (isSome_digit?_iff.not.mpr hdigit)
        rw [hnone]
        exact iff_of_false nofun fun h => hdigit h.1.1

theorem readDigits_zero_eq_ok_iff {bound n : Nat} {cs : List Char} :
    readDigits bound 0 cs = .ok n ↔
      ((∀ c ∈ cs, c.isDigit = true) ∧ Nat.ofDigitChars 10 cs 0 = n) ∧ n ≤ bound := by
  rw [readDigits_eq_ok_iff (Nat.zero_le bound), and_assoc]
  refine and_congr_right fun h => ?_
  rw [ofDigits_of_isDigit 0 h]

/-- A number with a bound is read from exactly the texts that are that number in decimal. -/
theorem readDecimal_eq_ok_iff {bound n : Nat} {cs : List Char} :
    readDecimal bound cs = .ok n ↔ IsDecimal cs n ∧ n ≤ bound := by
  fun_cases readDecimal bound cs with
  | case1 =>
      rw [isDecimal_iff_of_head? (by decide)]
      exact iff_of_false nofun fun h => h.1.1 rfl
  | case2 =>
      rw [isDecimal_plus_iff]
      exact iff_of_false nofun fun h => h.1.1 rfl
  | case3 cs hne =>
      rw [readDigits_zero_eq_ok_iff, isDecimal_plus_iff, and_iff_right hne]
  | case4 cs hne _ hplus =>
      have hhead : cs.head? ≠ some '+' := by
        intro hhead
        obtain ⟨rest, hcs⟩ := List.head?_eq_some_iff.mp hhead
        exact hplus rest hcs
      rw [readDigits_zero_eq_ok_iff, isDecimal_iff_of_head? hhead, and_iff_right hne]

end Provenance.Text

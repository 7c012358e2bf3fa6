import Provenance.Mappings.Vlq

/-!
# Numbers written and read back

A signed number is written five bits a letter, the lowest first, where the lowest bit of all is
its sign. `numbers_writeNumber` says that a segment written from numbers of up to 62 bits is read
as these numbers.

## Implementation notes

Reading assembles a number below a growing shift, so its invariant speaks of the bits that are
still to come, scaled by the shift. They stay below `2 ^ 64`, and this keeps the shift below 64 as
long as there are bits left.
-/

namespace Provenance.Mappings

/-- The letters of the alphabet, in the order of their indices. -/
def alphabet : List Char :=
  "ABCDEFGHIJKLMNOPQRSTUVWXYZabcdefghijklmnopqrstuvwxyz0123456789+/".toList

/-- The letter with an index below 64. -/
def letter (i : Nat) : Char := alphabet.getD i 'A'

/-- The bits of a number, the lowest of which is its sign. -/
def signedBits (n : Int) : Nat := if n < 0 then 2 * n.natAbs + 1 else 2 * n.natAbs

/-- Bits as letters; all but the last letter stand in the upper half of the alphabet. -/
def writeBits (bits : Nat) : List Char :=
  if bits < 32 then [letter bits] else letter (bits % 32 + 32) :: writeBits (bits / 32)

/-- A number as it is written. -/
def writeNumber (n : Int) : List Char := writeBits (signedBits n)

/-! ## Letters -/

theorem letterIndex?_letter : ∀ i < 64, letterIndex? (letter i) = some i := by
  decide +kernel

theorem digits_letter {i : Nat} (hi : i < 64) : digits (letter i) = [⟨i % 32, 32 ≤ i⟩] := by
  rw [digits, letterIndex?_letter i hi]

/-- Numbers are written in letters only. -/
theorem isSome_letterIndex?_of_mem_writeBits {bits : Nat} {c : Char} (hc : c ∈ writeBits bits) :
    (letterIndex? c).isSome = true := by
  induction bits using writeBits.induct with
  | case1 bits hlt =>
      rw [writeBits, if_pos hlt, List.mem_singleton] at hc
      rw [hc, letterIndex?_letter bits (by omega)]
      rfl
  | case2 bits hge ih =>
      rw [writeBits, if_neg hge, List.mem_cons] at hc
      rcases hc with rfl | hc
      · rw [letterIndex?_letter _ (by omega)]
        rfl
      · exact ih hc

theorem writeBits_ne_nil (bits : Nat) : writeBits bits ≠ [] := by
  rw [writeBits]
  split
  · exact List.cons_ne_nil _ _
  · exact List.cons_ne_nil _ _

/-! ## Reading -/

/-- Bits that are written are read to their end and added where the shift puts them. -/
theorem readNumbers_writeBits (bits raw shift : Nat) (rest : List Digit) (hshift : shift < 64)
    (hfits : bits * 2 ^ shift < 2 ^ 64) :
    readNumbers ((writeBits bits).flatMap digits ++ rest) raw shift =
      (readNumbers rest 0 0).map (signedValue (raw + bits * 2 ^ shift) :: ·) := by
  induction bits using writeBits.induct generalizing raw shift with
  | case1 bits hlt =>
      have hmod : bits % 32 = bits := Nat.mod_eq_of_lt hlt
      have hlast : decide (32 ≤ bits) = false := decide_eq_false (by omega)
      rw [writeBits, if_pos hlt, List.flatMap_singleton, digits_letter (by omega),
        List.singleton_append, readNumbers, if_neg (by omega), hmod, hlast]
      rfl
  | case2 bits hge ih =>
      have hmod : (bits % 32 + 32) % 32 = bits % 32 := by omega
      have hmore : decide (32 ≤ bits % 32 + 32) = true := decide_eq_true (by omega)
      have hpow : 2 ^ (shift + 5) = 32 * 2 ^ shift := by rw [Nat.pow_add, Nat.mul_comm]
      have hsplit : bits % 32 * 2 ^ shift + bits / 32 * 2 ^ (shift + 5) = bits * 2 ^ shift := by
        rw [hpow, ← Nat.mul_assoc, ← Nat.add_mul, Nat.mod_add_div']
      have hfits' : bits / 32 * 2 ^ (shift + 5) < 2 ^ 64 := by omega
      -- There are bits left, so the shift cannot have passed the register.
      have hshift' : shift + 5 < 64 := by
        have hone : 1 * 2 ^ (shift + 5) ≤ bits / 32 * 2 ^ (shift + 5) :=
          Nat.mul_le_mul_right _ (by omega)
        rw [Nat.one_mul] at hone
        exact (Nat.pow_lt_pow_iff_right (by decide)).mp (Nat.lt_of_le_of_lt hone hfits')
      rw [writeBits, if_neg hge, List.flatMap_cons, digits_letter (by omega), List.append_assoc,
        List.singleton_append, readNumbers, if_neg (by omega), hmod, hmore, if_pos rfl,
        ih _ _ hshift' hfits', Nat.add_assoc, hsplit]

/-- The sign and the magnitude of a number are found again in its bits. -/
theorem signedValue_signedBits {n : Int} (hn : n.natAbs < 2 ^ 62) :
    signedValue (signedBits n) = n := by
  have hbits : signedBits n < 2 ^ 63 := by
    unfold signedBits
    split <;> omega
  have hregister : Int.bmod (signedBits n) (2 ^ 64) = signedBits n := by
    rw [Int.bmod_def]
    split <;> omega
  rw [signedValue, hregister]
  unfold signedBits
  split <;> split <;> omega

/-- A segment that is written from numbers is read as these numbers. -/
theorem numbers_writeNumber (ns : List Int) (hns : ∀ n ∈ ns, n.natAbs < 2 ^ 62) :
    numbers (ns.flatMap writeNumber) = .ok ns := by
  rw [numbers]
  induction ns with
  | nil => rfl
  | cons n ns ih =>
      have hn := hns n List.mem_cons_self
      have hfits : signedBits n * 2 ^ 0 < 2 ^ 64 := by
        unfold signedBits
        split <;> omega
      rw [List.flatMap_cons, List.flatMap_append, writeNumber,
        readNumbers_writeBits _ _ _ _ (by decide) hfits,
        ih fun m hm => hns m (List.mem_cons_of_mem n hm), Nat.zero_add, Nat.pow_zero, Nat.mul_one,
        signedValue_signedBits hn]
      rfl

end Provenance.Mappings

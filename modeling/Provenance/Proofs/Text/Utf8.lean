import Provenance.Text.Utf8

/-!
# Decoding what was encoded

The bytes of a text are decoded to its characters, without a malformed piece (`decode_encode`).

## Implementation notes

The first byte of a character fixes how many bytes follow it and bounds the second one, which
excludes overlong forms and halves of surrogate pairs. Each kind of byte has one lemma, and the four
lengths of a character are put together from these.
-/

namespace Provenance.Text.Utf8

variable {done : List (Option Char)} {a d n low high value missing : Nat} {bytes : List UInt8}

theorem toNat_ofNat (h : n < 256) : (UInt8.ofNat n).toNat = n :=
  UInt8.toNat_ofNat_of_lt' h

theorem decodeFrom_cons {state next : State} {byte : UInt8} {done' : List (Option Char)}
    (h : step state done byte = (next, done')) (bytes : List UInt8) :
    decodeFrom state done (byte :: bytes) = decodeFrom next done' bytes := by
  have hstep : decodeFrom state done (byte :: bytes) =
      decodeFrom (step state done byte).1 (step state done byte).2 bytes := by
    cases state <;> rfl
  rw [hstep, h]

/-! ## First bytes -/

theorem step_one (hn : n < 0x80) :
    step .between done (UInt8.ofNat n) = (.between, some (Char.ofNat n) :: done) := by
  rw [step, readFirst, toNat_ofNat (by omega)]
  exact if_pos hn

theorem step_two (ha : 2 ≤ a) (ha' : a < 32) :
    step .between done (UInt8.ofNat (a + 0xC0)) = (.inside 0 0x80 0xBF a, done) := by
  rw [step, readFirst, toNat_ofNat (by omega)]
  rw [if_neg (by omega), if_neg (by omega), if_pos (by omega), Nat.add_sub_cancel]

/-- Of three bytes the second one is bounded after the least first byte and before surrogates. -/
theorem step_three (ha : a < 16) :
    step .between done (UInt8.ofNat (a + 0xE0)) =
      (.inside 1 (if a = 0 then 0xA0 else 0x80) (if a = 0xD then 0x9F else 0xBF) a, done) := by
  rw [step, readFirst, toNat_ofNat (by omega)]
  rw [if_neg (by omega), if_neg (by omega), if_neg (by omega)]
  by_cases hzero : a = 0
  · subst hzero
    rfl
  · by_cases hsurrogate : a = 0xD
    · subst hsurrogate
      rfl
    · rw [if_neg (by omega), if_neg (by omega), if_pos (by omega), if_neg hzero,
        if_neg hsurrogate, Nat.add_sub_cancel]

/-- Of four bytes the second one is bounded after the least and the greatest first byte. -/
theorem step_four (ha : a < 5) :
    step .between done (UInt8.ofNat (a + 0xF0)) =
      (.inside 2 (if a = 0 then 0x90 else 0x80) (if a = 4 then 0x8F else 0xBF) a, done) := by
  rw [step, readFirst, toNat_ofNat (by omega)]
  rw [if_neg (by omega), if_neg (by omega), if_neg (by omega), if_neg (by omega),
    if_neg (by omega), if_neg (by omega)]
  by_cases hzero : a = 0
  · subst hzero
    rfl
  · by_cases hgreatest : a = 4
    · subst hgreatest
      rfl
    · rw [if_neg (by omega), if_pos (by omega), if_neg hzero, if_neg hgreatest,
        Nat.add_sub_cancel]

/-! ## Further bytes -/

/-- A further byte adds six bits. -/
theorem step_inside (hd : d < 0x40) (hlow : low ≤ d + 0x80) (hhigh : d + 0x80 ≤ high) :
    step (.inside missing low high value) done (UInt8.ofNat (d + 0x80)) =
      match missing with
      | 0 => (.between, some (Char.ofNat (value * 0x40 + d)) :: done)
      | m + 1 => (.inside m 0x80 0xBF (value * 0x40 + d), done) := by
  have hmod : (d + 0x80) % 0x40 = d := by omega
  rw [step, toNat_ofNat (by omega)]
  dsimp only
  refine (if_pos ⟨hlow, hhigh⟩).trans ?_
  cases missing <;> simp only [hmod]

/-! ## Texts -/

/-- The bytes of a character are decoded to it. -/
theorem decodeFrom_utf8EncodeChar (c : Char) (done : List (Option Char)) (bytes : List UInt8) :
    decodeFrom .between done (String.utf8EncodeChar c ++ bytes) =
      decodeFrom .between (some c :: done) bytes := by
  have hvalid := c.valid
  rw [UInt32.isValidChar, Nat.isValidChar] at hvalid
  have hchar : Char.ofNat c.val.toNat = c := Char.ofNat_toNat c
  rw [String.utf8EncodeChar]
  generalize c.val.toNat = v at hvalid hchar
  split
  · rw [List.singleton_append, decodeFrom_cons (step_one (by omega)), hchar]
  · split
    · have hvalue : v / 64 % 32 * 0x40 + v % 64 = v := by omega
      rw [List.cons_append, decodeFrom_cons (step_two (by omega) (by omega)),
        List.singleton_append,
        decodeFrom_cons (step_inside (by omega) (by omega) (by omega)), hvalue, hchar]
    · split
      · have hvalue : (v / 4096 % 16 * 0x40 + v / 64 % 64) * 0x40 + v % 64 = v := by omega
        rw [List.cons_append, decodeFrom_cons (step_three (by omega)), List.cons_append,
          decodeFrom_cons (step_inside (by omega) (by split <;> omega) (by split <;> omega)),
          List.singleton_append,
          decodeFrom_cons (step_inside (by omega) (by omega) (by omega)), hvalue, hchar]
      · have hvalue : ((v / 262144 % 8 * 0x40 + v / 4096 % 64) * 0x40 + v / 64 % 64) * 0x40 +
            v % 64 = v := by omega
        rw [List.cons_append, decodeFrom_cons (step_four (by omega)), List.cons_append,
          decodeFrom_cons (step_inside (by omega) (by split <;> omega) (by split <;> omega)),
          List.cons_append,
          decodeFrom_cons (step_inside (by omega) (by omega) (by omega)), List.singleton_append,
          decodeFrom_cons (step_inside (by omega) (by omega) (by omega)), hvalue, hchar]

/-- The bytes of a text are decoded to its characters. -/
theorem decode_encode (cs : List Char) : decode (encode cs) = cs.map some := by
  have hall (cs : List Char) (done : List (Option Char)) :
      decodeFrom .between done (encode cs) = done.reverse ++ cs.map some := by
    induction cs generalizing done with
    | nil =>
        rw [List.map_nil, List.append_nil]
        rfl
    | cons c cs ih =>
        rw [encode_cons, decodeFrom_utf8EncodeChar, ih, List.reverse_cons, List.append_assoc]
        rfl
  exact hall cs []

end Provenance.Text.Utf8

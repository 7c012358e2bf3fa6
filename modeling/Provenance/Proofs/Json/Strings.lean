import Provenance.Json.Printer
import Provenance.Json.Token

/-!
# Texts between quotes

A text that is written between quotes is read back as one token (`scanFrom_quote`), whatever
characters it consists of.

## Implementation notes

Between quotes the scanner collects code points, the last of them first. A character is never half
of a surrogate pair, so joining the halves changes nothing in what was collected from a text.
-/

namespace Provenance.Json.Token

variable {done done' : List Token} {state next : Scan} {c : Char} {rest : List (Option Char)}

theorem scanFrom_cons {o : Option Char} (h : step done state o = some (next, done'))
    (rest : List (Option Char)) : scanFrom state done (o :: rest) = scanFrom next done' rest := by
  rw [scanFrom, h]

/-! ## Code points -/

theorem isLow_toNat (c : Char) : isLow c.toNat = false := by
  have hvalid := c.valid
  simp only [isLow, Char.toNat, Bool.and_eq_false_iff, decide_eq_false_iff_not]
  rw [UInt32.isValidChar, Nat.isValidChar] at hvalid
  omega

theorem isHigh_toNat (c : Char) : isHigh c.toNat = false := by
  have hvalid := c.valid
  simp only [isHigh, Char.toNat, Bool.and_eq_false_iff, decide_eq_false_iff_not]
  rw [UInt32.isValidChar, Nat.isValidChar] at hvalid
  omega

theorem toNat_lt_malformed (c : Char) : c.toNat < malformed := by
  have hvalid := c.valid
  rw [UInt32.isValidChar, Nat.isValidChar] at hvalid
  rw [Char.toNat, malformed]
  omega

/-- The code points of characters are joined to these characters. -/
theorem joinOnto_toNat (collected : List Char) (cs : List Char) :
    joinOnto collected (cs.map Char.toNat) = some (cs.reverse ++ collected) := by
  induction cs generalizing collected with
  | nil => rfl
  | cons c cs ih =>
      have hhigh : (isHigh c.toNat || decide (malformed ≤ c.toNat)) = false := by
        rw [isHigh_toNat, Bool.false_or, decide_eq_false_iff_not, Nat.not_le]
        exact toNat_lt_malformed c
      rw [List.map_cons, joinOnto.eq_def]
      simp only [isLow_toNat, hhigh, Bool.false_eq_true, if_false]
      rw [Char.ofNat_toNat, ih, List.reverse_cons, List.append_assoc]
      rfl

theorem textOf_toNat (s : String) : textOf (s.toList.map Char.toNat).reverse = some s := by
  rw [textOf, ← List.map_reverse, joinOnto_toNat, List.reverse_reverse, List.append_nil,
    Option.map_some, String.ofList_toList]

/-! ## Escapes -/

theorem hexValue?_hexDigit : ∀ n < 16, hexValue? (hexDigit n) = some n := by decide

/-- Two digits after two zeros give the number of a control character. -/
theorem scanFrom_hex (points : List Nat) (done : List Token) {n : Nat} (hn : n < 0x20)
    (rest : List (Option Char)) :
    scanFrom (.hex points 3 0) done
        (some '0' :: some '0' :: some (hexDigit (n / 16)) :: some (hexDigit (n % 16)) :: rest) =
      scanFrom (.quoted (n :: points)) done rest := by
  have hzero : hexValue? '0' = some 0 := rfl
  have hupper : hexValue? (hexDigit (n / 16)) = some (n / 16) := hexValue?_hexDigit _ (by omega)
  have hlower : hexValue? (hexDigit (n % 16)) = some (n % 16) := hexValue?_hexDigit _ (by omega)
  have hvalue : (((0 * 16 + 0) * 16 + 0) * 16 + n / 16) * 16 + n % 16 = n := by omega
  simp only [scanFrom, step, hzero, hupper, hlower, Option.map_some, hvalue]

/-- A character stands for itself between quotes, escaped or not. -/
theorem scanFrom_escape (points : List Nat) (done : List Token) (c : Char)
    (rest : List (Option Char)) :
    scanFrom (.quoted points) done ((escape c).map some ++ rest) =
      scanFrom (.quoted (c.toNat :: points)) done rest := by
  by_cases hquote : c = '"'
  · subst hquote
    rfl
  by_cases hbackslash : c = '\\'
  · subst hbackslash
    rfl
  by_cases hnewline : c = '\n'
  · subst hnewline
    rfl
  by_cases hreturn : c = '\r'
  · subst hreturn
    rfl
  by_cases htab : c = '\t'
  · subst htab
    rfl
  by_cases hbackspace : c = '\x08'
  · subst hbackspace
    rfl
  by_cases hfeed : c = '\x0c'
  · subst hfeed
    rfl
  rw [escape, if_neg hquote, if_neg hbackslash, if_neg hnewline, if_neg hreturn, if_neg htab,
    if_neg hbackspace, if_neg hfeed]
  by_cases hcontrol : c.toNat < 0x20
  · rw [if_pos hcontrol]
    exact scanFrom_hex points done hcontrol rest
  · rw [if_neg hcontrol]
    refine scanFrom_cons ?_ rest
    rw [step, if_neg hquote, if_neg hbackslash, if_neg hcontrol]

theorem scanFrom_escapes (points : List Nat) (done : List Token) (cs : List Char)
    (rest : List (Option Char)) :
    scanFrom (.quoted points) done ((cs.flatMap escape).map some ++ rest) =
      scanFrom (.quoted ((cs.map Char.toNat).reverse ++ points)) done rest := by
  induction cs generalizing points with
  | nil => rfl
  | cons c cs ih =>
      rw [List.flatMap_cons, List.map_append, List.append_assoc, scanFrom_escape, ih,
        List.map_cons, List.reverse_cons, List.append_assoc]
      rfl

/-- A text between quotes is one token. -/
theorem scanFrom_quote (done : List Token) (s : String) (rest : List (Option Char)) :
    scanFrom .outside done ((quote s).map some ++ rest) =
      scanFrom .outside (.string (some s) :: done) rest := by
  have hopen : step done .outside (some '"') = some (.quoted [], done) := rfl
  rw [quote, List.map_cons, List.cons_append, scanFrom_cons hopen, List.map_append,
    List.append_assoc, scanFrom_escapes, List.append_nil]
  refine scanFrom_cons ?_ rest
  rw [step, if_pos rfl, textOf_toNat]

end Provenance.Json.Token

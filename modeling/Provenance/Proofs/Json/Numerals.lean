import Mathlib.Data.List.TakeDrop
import Provenance.Json.Number
import Provenance.Proofs.Binary64.Shortest

/-!
# Numerals written and read

A numeral that has a digit wherever one must stand is read back from its text
(`ofChars?_print`). Every number is written as such a numeral (`proper_of_numeral?`), and an integer
is read back from its numeral (`integer?_ofInt`).
-/

namespace Provenance.Json.Numeral

open Provenance.Text

/-- One or more digits. -/
def Digits (cs : List Char) : Prop := cs ≠ [] ∧ ∀ c ∈ cs, isDigit c = true

/-- There are digits in every part of the numeral, and a leading zero stands alone. -/
structure Proper (n : Numeral) : Prop where
  whole : Digits n.whole
  leading : n.whole.head? = some '0' → n.whole = ['0']
  fraction : ∀ ds, n.fraction = some ds → Digits ds
  exponent : ∀ e, n.exponent = some e → Digits e.2

variable {n : Numeral} {ds rest : List Char} {c : Char}

theorem isDigit_iff : isDigit c = true ↔ c.isDigit = true := isSome_digit?_iff

theorem isDigit_zero : isDigit '0' = true := by decide

theorem digits_singleton (hc : isDigit c = true) : Digits [c] :=
  ⟨List.cons_ne_nil _ _, fun _ hmem => List.mem_singleton.mp hmem ▸ hc⟩

theorem isDigit_of_mem_zeros {k : Nat} (hc : c ∈ List.replicate k '0') : isDigit c = true :=
  List.eq_of_mem_replicate hc ▸ isDigit_zero

theorem digits_append {es : List Char} (hne : ds ++ es ≠ []) (hds : ∀ c ∈ ds, isDigit c = true)
    (hes : ∀ c ∈ es, isDigit c = true) : Digits (ds ++ es) :=
  ⟨hne, fun c hc => (List.mem_append.mp hc).elim (hds c) (hes c)⟩

theorem digits_decimal (n : Nat) : Digits (decimal n) :=
  ⟨decimal_ne_nil n, fun _ hc => isDigit_iff.mpr (isDigit_of_mem_decimal hc)⟩

/-! ## Reading -/

/-- Text that does not go on with a digit. -/
def Stops (rest : List Char) : Prop := ∀ c ∈ rest.head?, isDigit c = false

theorem span_digits (hds : ∀ c ∈ ds, isDigit c = true) (hrest : Stops rest) :
    (ds ++ rest).span isDigit = (ds, rest) := by
  have hnone : rest.takeWhile isDigit = [] ∧ rest.dropWhile isDigit = rest := by
    cases rest with
    | nil => exact ⟨rfl, rfl⟩
    | cons c rest =>
        have hc : isDigit c = false := hrest c rfl
        exact ⟨List.takeWhile_cons_of_neg (by simp [hc]), List.dropWhile_cons_of_neg (by simp [hc])⟩
  rw [List.span_eq_takeWhile_dropWhile, List.takeWhile_append_of_pos hds,
    List.dropWhile_append_of_pos hds, hnone.1, hnone.2, List.append_nil]

/-- An exponent as it is written. -/
def exponentText (e : Option (Bool × List Char)) : List Char :=
  e.elim [] fun (negative, digits) => 'e' :: (if negative then '-' else '+') :: digits

theorem stops_exponentText (e : Option (Bool × List Char)) : Stops (exponentText e) := by
  rcases e with _ | ⟨negative, digits⟩
  · exact nofun
  · rintro c ⟨⟩
    decide

theorem readExponent_exponentText {e : Option (Bool × List Char)}
    (h : ∀ p, e = some p → Digits p.2) : readExponent (exponentText e) = some e := by
  rcases e with _ | ⟨negative, digits⟩
  · rfl
  · obtain ⟨hne, hdigits⟩ : Digits digits := h _ rfl
    have hall : digits ≠ [] ∧ digits.all isDigit = true := ⟨hne, List.all_eq_true.mpr hdigits⟩
    cases negative with
    | false => exact if_pos hall
    | true => exact if_pos hall

theorem readTail_print (negative : Bool) (whole : List Char)
    (hfraction : ∀ ds, n.fraction = some ds → Digits ds)
    (hexponent : ∀ e, n.exponent = some e → Digits e.2) :
    readTail negative whole (n.fraction.elim [] ('.' :: ·) ++ exponentText n.exponent) =
      some ⟨negative, whole, n.fraction, n.exponent⟩ := by
  have hread := readExponent_exponentText hexponent
  cases hf : n.fraction with
  | none =>
      rw [Option.elim_none, List.nil_append]
      rcases he : n.exponent with _ | ⟨sign, digits⟩
      · rfl
      · rw [he] at hread
        change (readExponent (exponentText (some (sign, digits)))).bind _ = _
        rw [hread]
        rfl
  | some ds =>
      obtain ⟨hne, hds⟩ := hfraction ds hf
      have hspan := span_digits hds (stops_exponentText n.exponent)
      change readTail negative whole ('.' :: (ds ++ exponentText n.exponent)) = _
      simp only [readTail, hspan, if_neg hne, hread]
      rfl

/-- Behind its sign a proper numeral begins with a digit and goes on with its other parts. -/
theorem print_eq (n : Numeral) : n.print =
    (if n.negative then ['-'] else []) ++
      (n.whole ++ (n.fraction.elim [] ('.' :: ·) ++ exponentText n.exponent)) := by
  simp only [print, exponentText, List.append_assoc]

theorem readUnsigned_print (h : n.Proper) (negative : Bool) :
    readUnsigned negative
        (n.whole ++ (n.fraction.elim [] ('.' :: ·) ++ exponentText n.exponent)) =
      some ⟨negative, n.whole, n.fraction, n.exponent⟩ := by
  have htail := readTail_print negative n.whole h.fraction h.exponent
  have hstops : Stops (n.fraction.elim [] ('.' :: ·) ++ exponentText n.exponent) := by
    cases n.fraction with
    | none => exact stops_exponentText n.exponent
    | some ds =>
        rintro c ⟨⟩
        decide
  obtain ⟨hne, hdigits⟩ := h.whole
  rw [readUnsigned, span_digits hdigits hstops]
  rcases hwhole : n.whole with _ | ⟨c, cs⟩
  · exact absurd hwhole hne
  · rw [hwhole] at htail
    by_cases hzero : c = '0'
    · have hone := h.leading (by rw [hwhole, hzero]; rfl)
      rw [hwhole] at hone
      obtain ⟨rfl, rfl⟩ := List.cons.inj hone
      exact htail
    · rw [← htail]
      split
      · rename_i heq
        cases heq
      · rename_i heq
        cases heq
        exact absurd rfl hzero
      · rename_i heq
        cases heq
        exact absurd rfl hzero
      · rename_i heq
        cases heq
        rfl

theorem ofChars?_cons (hc : c ≠ '-') (cs : List Char) :
    ofChars? (c :: cs) = readUnsigned false (c :: cs) := by
  rw [ofChars?]
  rintro cs' ⟨⟩
  exact hc rfl

/-- A proper numeral is read back from its text. -/
theorem ofChars?_print (h : n.Proper) : ofChars? n.print = some n := by
  rw [print_eq]
  cases hnegative : n.negative with
  | true =>
      change readUnsigned true (n.whole ++ _) = _
      rw [readUnsigned_print h, ← hnegative]
  | false =>
      have hread := readUnsigned_print h false
      obtain ⟨hne, hdigits⟩ := h.whole
      rcases hwhole : n.whole with _ | ⟨c, cs⟩
      · exact absurd hwhole hne
      · rw [hwhole] at hread
        have hc : c ≠ '-' := by
          rintro rfl
          have hdigit := hdigits '-' (by rw [hwhole]; exact List.mem_cons_self)
          exact absurd hdigit (by decide)
        refine (ofChars?_cons hc _).trans (hread.trans ?_)
        rw [← hwhole, ← hnegative]

/-! ## Numbers -/

/-- The numeral of an integer has nothing but its digits. -/
theorem proper_ofInt (i : Int) : (ofInt i).Proper where
  whole := digits_decimal i.natAbs
  leading := by
    intro hzero
    by_cases hi : i.natAbs = 0
    · change decimal i.natAbs = _
      rw [hi, decimal_zero]
    · exact absurd hzero (head?_decimal hi)
  fraction := nofun
  exponent := nofun

/-- An integer is read back from its numeral. -/
theorem integer?_ofInt (i : Int) : (ofInt i).integer? = some i := by
  have hvalue : (decimal i.natAbs).foldl (fun v c => v * 10 + (digit? c).getD 0) 0 = i.natAbs :=
    ofDigits_decimal i.natAbs
  rw [integer?, if_pos ⟨rfl, rfl⟩]
  simp only [ofInt, hvalue]
  by_cases hi : i < 0
  · rw [if_pos (decide_eq_true hi), if_neg (by omega)]
    exact congrArg some (by omega)
  · rw [if_neg (by simpa using hi)]
    exact congrArg some (by omega)

/-- All digits may stand before the point, with zeros behind them. -/
theorem proper_padded (negative : Bool) (h : Digits ds) (hhead : ds.head? ≠ some '0') (k : Nat) :
    Proper ⟨negative, ds ++ List.replicate k '0', some ['0'], none⟩ where
  whole := digits_append (List.append_ne_nil_of_left_ne_nil h.1 _) h.2
    fun _ hc => isDigit_of_mem_zeros hc
  leading := by
    intro hzero
    rw [List.head?_append, Option.or_of_isSome (List.isSome_head?.mpr h.1)] at hzero
    exact absurd hzero hhead
  fraction := by
    rintro ds ⟨⟩
    exact digits_singleton isDigit_zero
  exponent := nofun

/-- The point may stand between two digits. -/
theorem proper_cut (negative : Bool) (h : Digits ds) (hhead : ds.head? ≠ some '0') {k : Nat}
    (hpos : 0 < k) (hlt : k < ds.length) :
    Proper ⟨negative, ds.take k, some (ds.drop k), none⟩ where
  whole := by
    refine ⟨List.ne_nil_of_length_pos ?_, fun c hc => h.2 c (List.mem_of_mem_take hc)⟩
    rw [List.length_take]
    omega
  leading := by
    intro hzero
    rw [List.head?_take, if_neg (Nat.pos_iff_ne_zero.mp hpos)] at hzero
    exact absurd hzero hhead
  fraction := by
    rintro ds ⟨⟩
    refine ⟨List.ne_nil_of_length_pos ?_, fun c hc => h.2 c (List.mem_of_mem_drop hc)⟩
    rw [List.length_drop]
    omega
  exponent := nofun

/-- Zeros may stand between the point and the digits. -/
theorem proper_shifted (negative : Bool) (h : Digits ds) (k : Nat) :
    Proper ⟨negative, ['0'], some (List.replicate k '0' ++ ds), none⟩ where
  whole := digits_singleton isDigit_zero
  leading := fun _ => rfl
  fraction := by
    rintro ds ⟨⟩
    exact digits_append (List.append_ne_nil_of_right_ne_nil _ h.1)
      (fun _ hc => isDigit_of_mem_zeros hc) h.2
  exponent := nofun

/-- One digit may stand before the point, with an exponent behind the others. -/
theorem proper_scientific (negative sign : Bool) (h : Digits (c :: ds)) (hc : c ≠ '0')
    (exponent : Nat) :
    Proper ⟨negative, [c], if ds = [] then none else some ds, some (sign, decimal exponent)⟩ where
  whole := digits_singleton (h.2 c List.mem_cons_self)
  leading := fun hzero => absurd (Option.some.inj hzero) hc
  fraction := by
    intro ds' hds
    split_ifs at hds with hnil
    obtain rfl := Option.some.inj hds
    exact ⟨hnil, fun d hd => h.2 d (List.mem_cons_of_mem c hd)⟩
  exponent := by
    rintro e ⟨⟩
    exact digits_decimal exponent

/-- The numeral of a decimal fraction other than zero has one of these forms. -/
theorem proper_numeralOf (negative : Bool) {d : Binary64.Decimal} (hd : d.digits ≠ 0) :
    (Number.numeralOf negative d).Proper := by
  have hdigits := digits_decimal d.digits
  have hhead := head?_decimal hd
  unfold Number.numeralOf
  generalize decimal d.digits = digits at hdigits hhead
  dsimp only
  split_ifs with hpadded hcut hshifted
  · exact proper_padded negative hdigits hhead _
  · exact proper_cut negative hdigits hhead (by omega) (by omega)
  · exact proper_shifted negative hdigits _
  · rcases digits with _ | ⟨c, _ | ⟨c', cs⟩⟩
    · exact absurd rfl hdigits.1
    · exact proper_scientific negative _ hdigits (fun hc => hhead (congrArg some hc)) _
    · exact proper_scientific negative _ hdigits (fun hc => hhead (congrArg some hc)) _

/-- Whatever number is written as a numeral is written as a proper one. -/
theorem proper_of_numeral? {number : Number} (h : number.numeral? = some n) : n.Proper := by
  cases number with
  | integer i =>
      obtain rfl := Option.some.inj h
      exact proper_ofInt i
  | float x =>
      rw [Number.numeral?] at h
      split at h
      · cases h
      · split at h
        · obtain rfl := Option.some.inj h
          refine ⟨digits_singleton isDigit_zero, fun _ => rfl, ?_, nofun⟩
          rintro ds ⟨⟩
          exact digits_singleton isDigit_zero
        · rename_i hzero
          obtain rfl := Option.some.inj h
          exact proper_numeralOf _ (Binary64.shortest_digits_ne_zero (Bool.eq_false_iff.mpr hzero))

end Provenance.Json.Numeral

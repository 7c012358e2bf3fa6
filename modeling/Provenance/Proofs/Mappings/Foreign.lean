import Provenance.Proofs.Mappings.Segments

/-!
# Foreign characters in a mappings text

A mappings text is meant to consist of letters, commas and semicolons. Whatever else stands in it is
no error to the decoder but stands for digits: `/` for each byte, and `+` for U+007F. So a text is
decoded like the one where the foreign characters have been replaced (`decode_replaceForeign`), and
the only ones that are sure to be noticed are those at the end of a segment, since each of them says
that its number goes on.
-/

namespace Provenance.Mappings

open Provenance.Text

/-- The character is neither a letter nor a separator. Every character beyond ASCII is foreign. -/
def isForeign (c : Char) : Bool := (letterIndex? c).isNone && c != ',' && c != ';'

/-- The characters that are read like the given one; none of them is foreign. -/
def standIns (c : Char) : List Char :=
  if isForeign c then
    if c = '\x7f' then ['+'] else List.replicate c.utf8Size '/'
  else [c]

/-- The text with letters in the place of foreign characters. -/
def replaceForeign (mappings : String) : String :=
  String.ofList (mappings.toList.flatMap standIns)

/-! ## Characters -/

theorem letterIndex?_of_isForeign {c : Char} (h : isForeign c = true) : letterIndex? c = none := by
  simp only [isForeign, Bool.and_eq_true, Option.isNone_iff_eq_none] at h
  exact h.1.1

theorem standIns_ne_nil (c : Char) : standIns c ≠ [] := by
  rw [standIns]
  split_ifs
  · exact List.cons_ne_nil _ _
  · simpa using Nat.ne_of_gt c.utf8Size_pos
  · exact List.cons_ne_nil _ _

theorem isForeign_of_mem_standIns {c d : Char} (hd : d ∈ standIns c) : isForeign d = false := by
  rw [standIns] at hd
  split_ifs at hd with hforeign hdelete
  · rw [List.mem_singleton.mp hd]
    decide
  · rw [List.eq_of_mem_replicate hd]
    decide
  · rw [List.mem_singleton.mp hd]
    exact Bool.eq_false_iff.mpr hforeign

/-- A separator stands in for itself alone. -/
theorem notMem_standIns {s : Char} (hs : letterIndex? s = none) {c : Char} (hc : c ≠ s) :
    s ∉ standIns c := by
  have hletter : ∀ d : Char, (letterIndex? d).isSome = true → s ≠ d := by
    rintro d hd rfl
    rw [hs] at hd
    cases hd
  intro hmem
  rw [standIns] at hmem
  split_ifs at hmem
  · exact hletter '+' (by decide) (List.mem_singleton.mp hmem)
  · exact hletter '/' (by decide) (List.eq_of_mem_replicate hmem)
  · exact hc (List.mem_singleton.mp hmem).symm

theorem flatMap_digits_standIns (c : Char) : (standIns c).flatMap digits = digits c := by
  rw [standIns]
  split_ifs with hforeign hdelete
  · rw [hdelete]
    decide
  · rw [digits, letterIndex?_of_isForeign hforeign]
    simp only [if_neg hdelete]
    induction c.utf8Size with
    | zero => rfl
    | succ n ih =>
        rw [List.replicate_succ, List.flatMap_cons, ih, List.replicate_succ]
        rfl
  · rw [List.flatMap_singleton]

/-! ## Decoding -/

theorem numbers_flatMap_standIns (text : List Char) :
    numbers (text.flatMap standIns) = numbers text := by
  rw [numbers, numbers, List.flatMap_assoc]
  simp only [flatMap_digits_standIns]

theorem decodeLine_map_standIns (tables : Tables) (line : UInt32) (r : Running)
    (texts : List (List Char)) :
    decodeLine tables line r (texts.map (List.flatMap standIns)) =
      decodeLine tables line r texts := by
  induction texts generalizing r with
  | nil => rfl
  | cons text rest ih =>
      cases text with
      | nil => exact ih r
      | cons c cs =>
          have hne : (c :: cs).flatMap standIns ≠ [] := by
            rw [List.flatMap_cons]
            exact List.append_ne_nil_of_left_ne_nil (standIns_ne_nil c) _
          rw [List.map_cons, decodeLine_cons hne, decodeLine_cons (List.cons_ne_nil c cs),
            numbers_flatMap_standIns]
          simp only [ih]

theorem decodeLines_map_standIns (tables : Tables) (line : Nat) (r : Running)
    (texts : List (List Char)) :
    decodeLines tables line r (texts.map (List.flatMap standIns)) =
      decodeLines tables line r texts := by
  have hcomma (text : List Char) :
      splitAt ',' (text.flatMap standIns) = (splitAt ',' text).map (List.flatMap standIns) :=
    splitAt_flatMap (by decide) (fun _ => notMem_standIns (by decide)) text
  induction texts generalizing line r with
  | nil => rfl
  | cons text rest ih =>
      simp only [List.map_cons, decodeLines, hcomma, decodeLine_map_standIns, ih]

/-- Foreign characters are decoded as the letters that stand in for them. -/
theorem decode_replaceForeign (tables : Tables) (mappings : String) :
    decode tables (replaceForeign mappings) = decode tables mappings := by
  have hsemicolon := splitAt_flatMap (s := ';') (f := standIns) (by decide)
    (fun _ => notMem_standIns (by decide)) mappings.toList
  rw [decode, decode, replaceForeign, String.toList_ofList, hsemicolon, decodeLines_map_standIns]

theorem isForeign_of_mem_replaceForeign {mappings : String} {c : Char}
    (hc : c ∈ (replaceForeign mappings).toList) : isForeign c = false := by
  rw [replaceForeign, String.toList_ofList, List.mem_flatMap] at hc
  obtain ⟨d, -, hd⟩ := hc
  exact isForeign_of_mem_standIns hd

/-! ## Segments that do not end -/

/-- A number that should go on behind the last digit is refused. -/
theorem readNumbers_concat_ne_ok {d : Digit} (hd : d.more = true) (ds : List Digit)
    (raw shift : Nat) (ns : List Int) : readNumbers (ds ++ [d]) raw shift ≠ .ok ns := by
  induction ds generalizing raw shift ns with
  | nil =>
      rw [List.nil_append, readNumbers]
      split_ifs
      · exact nofun
      · rw [readNumbers, if_neg (Nat.succ_ne_zero _)]
        exact nofun
  | cons e es ih =>
      rw [List.cons_append, readNumbers]
      split_ifs
      · exact nofun
      · exact ih _ _ _
      · intro h
        cases hrest : readNumbers (es ++ [d]) 0 0 with
        | error cause =>
            rw [hrest] at h
            cases h
        | ok rest => exact ih 0 0 rest hrest

/-- The last digit of a foreign character says that its number goes on. -/
theorem exists_digits_concat {c : Char} (h : isForeign c = true) :
    ∃ ds d, digits c = ds ++ [d] ∧ d.more = true := by
  rw [digits, letterIndex?_of_isForeign h]
  obtain ⟨n, hn⟩ := Nat.exists_eq_succ_of_ne_zero (Nat.ne_of_gt c.utf8Size_pos)
  by_cases hdelete : c = '\x7f'
  · exact ⟨[], ⟨30, true⟩, if_pos hdelete, rfl⟩
  · refine ⟨List.replicate n ⟨31, true⟩, ⟨31, true⟩, ?_, rfl⟩
    simp only [if_neg hdelete, hn]
    exact List.replicate_succ'

theorem numbers_ne_ok_of_getLast? {text : List Char} {c : Char} (hlast : text.getLast? = some c)
    (hc : isForeign c = true) (ns : List Int) : numbers text ≠ .ok ns := by
  obtain ⟨before, rfl⟩ := List.getLast?_eq_some_iff.mp hlast
  obtain ⟨ds, d, hdigits, hmore⟩ := exists_digits_concat hc
  rw [numbers, List.flatMap_append, List.flatMap_singleton, hdigits, ← List.append_assoc]
  exact readNumbers_concat_ne_ok hmore _ 0 0 ns

/-- A text with a segment that ends in a foreign character is refused. -/
theorem decode_ne_ok_of_getLast? {tables : Tables} {mappings : String} {p : Nat × List Char}
    (hp : p ∈ segmentTexts mappings) {c : Char} (hlast : p.2.getLast? = some c)
    (hc : isForeign c = true) (raws : List RawSegment) : decode tables mappings ≠ .ok raws := by
  intro h
  obtain ⟨i, hi, rfl⟩ := List.mem_iff_getElem.mp hp
  have hreads := decode_spec h
  obtain ⟨ns, hns, -⟩ := (hreads.get hi (hreads.length_eq ▸ hi)).shaped
  exact numbers_ne_ok_of_getLast? hlast hc ns hns

end Provenance.Mappings

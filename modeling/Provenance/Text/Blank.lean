/-!
# Blank characters

The characters with the Unicode property `White_Space`, and the text left when they are
removed from both ends.
-/

namespace Provenance.Text

/-- The character has the Unicode property `White_Space`. -/
def isBlank (c : Char) : Bool :=
  let n := c.toNat
  (0x09 ≤ n && n ≤ 0x0D) || n == 0x20 || n == 0x85 || n == 0xA0 || n == 0x1680 ||
    (0x2000 ≤ n && n ≤ 0x200A) || n == 0x2028 || n == 0x2029 || n == 0x202F ||
    n == 0x205F || n == 0x3000

/-- Remove the blanks at both ends. -/
def trim (cs : List Char) : List Char :=
  ((cs.dropWhile isBlank).reverse.dropWhile isBlank).reverse

@[simp]
theorem trim_nil : trim [] = [] := rfl

/-- What is left are the characters behind some blanks, and the first of them is no blank. -/
theorem dropWhile_isBlank_eq_iff {cs rest : List Char} : cs.dropWhile isBlank = rest ↔
    (∃ before, cs = before ++ rest ∧ ∀ c ∈ before, isBlank c = true) ∧
      ∀ c ∈ rest.head?, isBlank c = false := by
  constructor
  · rintro rfl
    refine ⟨⟨cs.takeWhile isBlank, List.takeWhile_append_dropWhile.symm, ?_⟩, ?_⟩
    · exact fun c hc => List.all_eq_true.mp List.all_takeWhile c hc
    · intro c hc
      have hnot := List.head?_dropWhile_not isBlank cs
      rw [Option.mem_def.mp hc] at hnot
      exact hnot
  · rintro ⟨⟨before, rfl, hbefore⟩, hfirst⟩
    rw [List.dropWhile_append_of_pos hbefore]
    cases rest with
    | nil => rfl
    | cons c rest => exact List.dropWhile_cons_of_neg (by simp [hfirst c rfl])

/-- The first text is the second one with blanks around it, which itself neither begins nor ends
with a blank. -/
structure Trimmed (cs core : List Char) : Prop where
  split : ∃ before after, cs = before ++ core ++ after ∧ (∀ c ∈ before, isBlank c = true) ∧
    ∀ c ∈ after, isBlank c = true
  first : ∀ c ∈ core.head?, isBlank c = false
  last : ∀ c ∈ core.getLast?, isBlank c = false

/-- A text without blanks at its ends has none around it. -/
theorem trimmed_self {cs : List Char} (first : ∀ c ∈ cs.head?, isBlank c = false)
    (last : ∀ c ∈ cs.getLast?, isBlank c = false) : Trimmed cs cs :=
  ⟨⟨[], [], (List.append_nil cs).symm, nofun, nofun⟩, first, last⟩

/-- Removing blanks leaves exactly what stands between them. -/
theorem trim_eq_iff {cs core : List Char} : trim cs = core ↔ Trimmed cs core := by
  rw [trim, List.reverse_eq_iff, dropWhile_isBlank_eq_iff, List.head?_reverse]
  constructor
  · rintro ⟨⟨after, hrest, hafter⟩, hlast⟩
    rw [List.reverse_eq_iff, List.reverse_append, List.reverse_reverse,
      dropWhile_isBlank_eq_iff] at hrest
    obtain ⟨⟨before, hcs, hbefore⟩, hfirst⟩ := hrest
    refine ⟨⟨before, after.reverse, ?_, hbefore, ?_⟩, ?_, hlast⟩
    · rw [hcs, List.append_assoc]
    · exact fun c hc => hafter c (List.mem_reverse.mp hc)
    · intro c hc
      apply hfirst c
      rw [List.head?_append, Option.mem_def.mp hc]
      rfl
  · rintro ⟨⟨before, after, rfl, hbefore, hafter⟩, hfirst, hlast⟩
    cases core with
    | nil =>
        refine ⟨⟨[], ?_, nofun⟩, nofun⟩
        have hall : ∀ c ∈ before ++ [] ++ after, isBlank c = true := by
          intro c hc
          rw [List.append_nil] at hc
          exact (List.mem_append.mp hc).elim (hbefore c) (hafter c)
        rw [dropWhile_isBlank_eq_iff.mpr ⟨⟨_, (List.append_nil _).symm, hall⟩, nofun⟩]
        rfl
    | cons c core =>
        refine ⟨⟨after.reverse, ?_, fun c hc => hafter c (List.mem_reverse.mp hc)⟩, hlast⟩
        have hrest : (before ++ c :: core ++ after).dropWhile isBlank = c :: core ++ after :=
          dropWhile_isBlank_eq_iff.mpr ⟨⟨before, List.append_assoc .., hbefore⟩, hfirst⟩
        rw [hrest, List.reverse_append]

end Provenance.Text

/-!
# Lines

A text is cut at a separator into one part more than there are separators. Cut at its
newlines, it has one line more than it has newlines, and a trailing newline is followed by
an empty last line.
-/

namespace Provenance.Text

/-- Put a character in front of the first of several parts. -/
def consFirst (c : Char) : List (List Char) → List (List Char)
  | [] => [[c]]
  | part :: rest => (c :: part) :: rest

/-- The parts of a text between the separators. -/
def splitAt (separator : Char) : List Char → List (List Char)
  | [] => [[]]
  | c :: cs =>
    if c = separator then [] :: splitAt separator cs else consFirst c (splitAt separator cs)

/-- The lines of a text, without their newlines. -/
def lines (cs : List Char) : List (List Char) := splitAt '\n' cs

@[simp]
theorem splitAt_nil (s : Char) : splitAt s [] = [[]] := rfl

@[simp]
theorem splitAt_separator (s : Char) (cs : List Char) :
    splitAt s (s :: cs) = [] :: splitAt s cs := by
  simp [splitAt]

theorem splitAt_cons {s c : Char} (h : c ≠ s) (cs : List Char) :
    splitAt s (c :: cs) = consFirst c (splitAt s cs) := by
  simp [splitAt, h]

@[simp]
theorem length_consFirst (c : Char) (ps : List (List Char)) :
    (consFirst c ps).length = max 1 ps.length := by
  cases ps <;> simp [consFirst]

/-- There is one part more than there are separators. -/
theorem length_splitAt (s : Char) (cs : List Char) :
    (splitAt s cs).length = cs.count s + 1 := by
  induction cs with
  | nil => rfl
  | cons c cs ih =>
    by_cases h : c = s
    · subst h
      simp [ih]
    · simp [splitAt_cons h, ih, h]

/-- There is one line more than there are newlines. -/
theorem length_lines (cs : List Char) : (lines cs).length = cs.count '\n' + 1 :=
  length_splitAt '\n' cs

@[simp]
theorem lines_newline (cs : List Char) : lines ('\n' :: cs) = [] :: lines cs :=
  splitAt_separator '\n' cs

theorem lines_cons {c : Char} (h : c ≠ '\n') (cs : List Char) :
    lines (c :: cs) = consFirst c (lines cs) :=
  splitAt_cons h cs

theorem splitAt_of_notMem {s : Char} {cs : List Char} (h : s ∉ cs) : splitAt s cs = [cs] := by
  induction cs with
  | nil => rfl
  | cons c cs ih =>
    rw [List.mem_cons, not_or] at h
    rw [splitAt_cons (Ne.symm h.1), ih h.2]
    rfl

theorem splitAt_append {s : Char} {cs : List Char} (h : s ∉ cs) (rest : List Char) :
    splitAt s (cs ++ s :: rest) = cs :: splitAt s rest := by
  induction cs with
  | nil => exact splitAt_separator s rest
  | cons c cs ih =>
    rw [List.mem_cons, not_or] at h
    rw [List.cons_append, splitAt_cons (Ne.symm h.1), ih h.2]
    rfl

/-- Characters without a separator are put in front of the first part. -/
theorem splitAt_append_of_notMem {s : Char} {cs : List Char} (h : s ∉ cs) (rest : List Char) :
    splitAt s (cs ++ rest) = cs.foldr consFirst (splitAt s rest) := by
  induction cs with
  | nil => rfl
  | cons c cs ih =>
    rw [List.mem_cons, not_or] at h
    rw [List.cons_append, splitAt_cons (Ne.symm h.1), ih h.2, List.foldr_cons]

/-- Parts without separators are found again in the text that they are joined to. -/
theorem splitAt_intercalate {s : Char} {parts : List (List Char)} (hne : parts ≠ [])
    (h : ∀ part ∈ parts, s ∉ part) : splitAt s ([s].intercalate parts) = parts := by
  induction parts with
  | nil => exact absurd rfl hne
  | cons part rest ih =>
    have hpart := h part List.mem_cons_self
    cases rest with
    | nil => rw [List.intercalate_singleton, splitAt_of_notMem hpart]
    | cons next rest =>
      rw [List.intercalate_cons_cons, List.append_assoc, List.singleton_append,
        splitAt_append hpart, ih (List.cons_ne_nil _ _) fun p hp => h p (List.mem_cons_of_mem _ hp)]

theorem splitAt_ne_nil (s : Char) (cs : List Char) : splitAt s cs ≠ [] := by
  intro h
  have hlength := length_splitAt s cs
  rw [h] at hlength
  exact absurd hlength nofun

/-- The first part is replaced with what is put in front of it. -/
theorem map_flatMap_consFirst (f : Char → List Char) (c : Char) {parts : List (List Char)}
    (hne : parts ≠ []) :
    (consFirst c parts).map (List.flatMap f) =
      (f c).foldr consFirst (parts.map (List.flatMap f)) := by
  obtain ⟨part, rest, rfl⟩ := List.exists_cons_of_ne_nil hne
  rw [consFirst, List.map_cons, List.flatMap_cons, List.map_cons]
  induction f c with
  | nil => rfl
  | cons d ds ih => rw [List.foldr_cons, ← ih, List.cons_append, consFirst]

/-- A replacement that leaves the separators as they are changes the parts alone. -/
theorem splitAt_flatMap {s : Char} {f : Char → List Char} (hs : f s = [s])
    (hf : ∀ c, c ≠ s → s ∉ f c) (cs : List Char) :
    splitAt s (cs.flatMap f) = (splitAt s cs).map (List.flatMap f) := by
  induction cs with
  | nil => rfl
  | cons c cs ih =>
    by_cases h : c = s
    · rw [h, List.flatMap_cons, hs, List.singleton_append, splitAt_separator, splitAt_separator, ih,
        List.map_cons, List.flatMap_nil]
    · rw [List.flatMap_cons, splitAt_append_of_notMem (hf c h), ih, splitAt_cons h,
        map_flatMap_consFirst f c (splitAt_ne_nil s cs)]

theorem intercalate_consFirst (s c : Char) (parts : List (List Char)) :
    [s].intercalate (consFirst c parts) = c :: [s].intercalate parts := by
  match parts with
  | [] => rfl
  | [part] => rfl
  | part :: next :: rest =>
    rw [consFirst, List.intercalate_cons_cons, List.intercalate_cons_cons]
    rfl

/-- The parts of a text and the separators between them make up the text. -/
theorem intercalate_splitAt (s : Char) (cs : List Char) : [s].intercalate (splitAt s cs) = cs := by
  induction cs with
  | nil => rfl
  | cons c cs ih =>
    by_cases h : c = s
    · rw [h, splitAt_separator, List.intercalate_cons_of_ne_nil (splitAt_ne_nil s cs), ih]
      rfl
    · rw [splitAt_cons h, intercalate_consFirst, ih]

/-- A joined text has the characters of its parts and separators. -/
theorem eq_or_mem_of_mem_intercalate {s c : Char} {parts : List (List Char)}
    (h : c ∈ [s].intercalate parts) : c = s ∨ ∃ part ∈ parts, c ∈ part := by
  induction parts with
  | nil => exact absurd h List.not_mem_nil
  | cons part rest ih =>
    cases rest with
    | nil =>
      rw [List.intercalate_singleton] at h
      exact Or.inr ⟨part, List.mem_cons_self, h⟩
    | cons next rest =>
      rw [List.intercalate_cons_cons, List.append_assoc, List.singleton_append, List.mem_append,
        List.mem_cons] at h
      rcases h with h | h | h
      · exact Or.inr ⟨part, List.mem_cons_self, h⟩
      · exact Or.inl h
      · obtain heq | ⟨p, hp, hc⟩ := ih h
        · exact Or.inl heq
        · exact Or.inr ⟨p, List.mem_cons_of_mem _ hp, hc⟩

end Provenance.Text

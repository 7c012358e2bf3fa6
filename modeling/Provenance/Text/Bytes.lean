/-!
# Byte offsets

Offsets count bytes of the UTF-8 form of a text. A cut is defined only between two
characters, so taking and dropping a number of bytes fails inside a character and past the
end. Whenever a cut at `n` exists, the two parts put together give the text back.
-/

namespace Provenance.Text

/-- Length of a text in bytes. -/
def byteLength : List Char → Nat
  | [] => 0
  | c :: cs => c.utf8Size + byteLength cs

/-- The text before byte offset `n`, if `n` lies between two characters. -/
def takeBytes? : List Char → Nat → Option (List Char)
  | _, 0 => some []
  | [], _ + 1 => none
  | c :: cs, n + 1 =>
    if c.utf8Size ≤ n + 1 then (takeBytes? cs (n + 1 - c.utf8Size)).map (c :: ·) else none

/-- The text from byte offset `n` on, if `n` lies between two characters. -/
def dropBytes? : List Char → Nat → Option (List Char)
  | cs, 0 => some cs
  | [], _ + 1 => none
  | c :: cs, n + 1 =>
    if c.utf8Size ≤ n + 1 then dropBytes? cs (n + 1 - c.utf8Size) else none

/-- The text between two byte offsets, if both lie between characters. -/
def slice? (cs : List Char) (start stop : Nat) : Option (List Char) := do
  if start ≤ stop then
    let rest ← dropBytes? cs start
    takeBytes? rest (stop - start)
  else
    none

@[simp]
theorem byteLength_nil : byteLength [] = 0 := rfl

@[simp]
theorem byteLength_cons (c : Char) (cs : List Char) :
    byteLength (c :: cs) = c.utf8Size + byteLength cs := rfl

@[simp]
theorem byteLength_append (xs ys : List Char) :
    byteLength (xs ++ ys) = byteLength xs + byteLength ys := by
  induction xs with
  | nil => simp
  | cons c cs ih => simp [ih, Nat.add_assoc]

@[simp]
theorem takeBytes?_zero (cs : List Char) : takeBytes? cs 0 = some [] := by
  cases cs <;> rfl

@[simp]
theorem dropBytes?_zero (cs : List Char) : dropBytes? cs 0 = some cs := by
  cases cs <;> rfl

/-- A cut splits the text: what is taken has the asked length and precedes what is dropped. -/
theorem takeBytes?_eq_some_iff {cs before : List Char} {n : Nat} :
    takeBytes? cs n = some before ↔ byteLength before = n ∧ ∃ rest, cs = before ++ rest := by
  induction cs generalizing n before with
  | nil =>
    cases n with
    | zero =>
      constructor
      · intro h
        obtain rfl : [] = before := by simpa using h
        exact ⟨rfl, [], rfl⟩
      · rintro ⟨-, rest, h⟩
        obtain ⟨rfl, rfl⟩ := List.append_eq_nil_iff.1 h.symm
        rfl
    | succ n =>
      constructor
      · intro h
        simp [takeBytes?] at h
      · rintro ⟨hn, rest, h⟩
        obtain ⟨rfl, rfl⟩ := List.append_eq_nil_iff.1 h.symm
        simp at hn
  | cons c cs ih =>
    have hpos := c.utf8Size_pos
    cases n with
    | zero =>
      constructor
      · intro h
        obtain rfl : [] = before := by simpa using h
        exact ⟨rfl, c :: cs, rfl⟩
      · rintro ⟨hn, rest, h⟩
        cases before with
        | nil => rfl
        | cons b bs => simp at hn; have := b.utf8Size_pos; omega
    | succ n =>
      simp only [takeBytes?]
      split
      next hle =>
        simp only [Option.map_eq_some_iff, ih]
        constructor
        · rintro ⟨mid, ⟨hlen, rest, rfl⟩, rfl⟩
          exact ⟨by simp; omega, rest, rfl⟩
        · rintro ⟨hlen, rest, h⟩
          cases before with
          | nil => simp at hlen
          | cons b bs =>
            obtain ⟨rfl, rfl⟩ := List.cons.inj h
            refine ⟨bs, ⟨?_, rest, rfl⟩, rfl⟩
            simp at hlen
            omega
      next hlt =>
        refine ⟨fun h => by simp at h, ?_⟩
        rintro ⟨hlen, rest, h⟩
        cases before with
        | nil => simp at hlen
        | cons b bs =>
          obtain ⟨rfl, -⟩ := List.cons.inj h
          simp at hlen
          omega

/-- A cut leaves behind it what follows the text before it. -/
theorem dropBytes?_eq_map (cs : List Char) (n : Nat) :
    dropBytes? cs n = (takeBytes? cs n).map fun before => cs.drop before.length := by
  fun_induction dropBytes? cs n with
  | case1 cs => simp
  | case2 n => rfl
  | case3 c cs n hle ih => simp [takeBytes?, hle, ih, Function.comp_def]
  | case4 c cs n hlt => simp [takeBytes?, hlt]

theorem dropBytes?_eq_some_iff {cs rest : List Char} {n : Nat} :
    dropBytes? cs n = some rest ↔ ∃ before, cs = before ++ rest ∧ byteLength before = n := by
  rw [dropBytes?_eq_map, Option.map_eq_some_iff]
  constructor
  · rintro ⟨before, htake, rfl⟩
    obtain ⟨hlength, rest, rfl⟩ := takeBytes?_eq_some_iff.1 htake
    exact ⟨before, by simp, hlength⟩
  · rintro ⟨before, rfl, hlength⟩
    exact ⟨before, takeBytes?_eq_some_iff.2 ⟨hlength, rest, rfl⟩, by simp⟩

/-- A slice is what stands between two cuts. -/
theorem slice?_eq_some_iff {cs part : List Char} {start stop : Nat} :
    slice? cs start stop = some part ↔ ∃ before rest, cs = before ++ (part ++ rest) ∧
      byteLength before = start ∧ byteLength (before ++ part) = stop := by
  constructor
  · intro h
    simp only [slice?] at h
    split at h
    next hle =>
      obtain ⟨behind, hdrop, htake⟩ := Option.bind_eq_some_iff.1 h
      obtain ⟨before, rfl, hstart⟩ := dropBytes?_eq_some_iff.1 hdrop
      obtain ⟨hlength, rest, rfl⟩ := takeBytes?_eq_some_iff.1 htake
      refine ⟨before, rest, rfl, hstart, ?_⟩
      rw [byteLength_append]
      omega
    next => cases h
  · rintro ⟨before, rest, rfl, rfl, rfl⟩
    simp only [slice?, byteLength_append, Nat.le_add_right, if_true]
    refine Option.bind_eq_some_iff.2 ⟨part ++ rest, dropBytes?_eq_some_iff.2 ⟨before, rfl, rfl⟩, ?_⟩
    exact takeBytes?_eq_some_iff.2 ⟨by omega, rest, rfl⟩

/-- The length is the one that strings have. -/
theorem byteLength_toList (text : String) : byteLength text.toList = text.utf8ByteSize := by
  have h (cs : List Char) : (String.ofList cs).utf8ByteSize = byteLength cs := by
    induction cs with
    | nil => rfl
    | cons c cs ih => simp [String.ofList_cons, String.utf8ByteSize_append, ih]
  rw [← h, String.ofList_toList]

/-- A text can be cut at the offsets between its characters. -/
theorem isSome_takeBytes?_iff {text : String} {n : Nat} :
    (takeBytes? text.toList n).isSome = true ↔ String.Pos.Raw.IsValid text ⟨n⟩ := by
  rw [Option.isSome_iff_exists, String.Pos.Raw.isValid_iff_exists_append]
  constructor
  · rintro ⟨before, htake⟩
    obtain ⟨rfl, rest, htext⟩ := takeBytes?_eq_some_iff.1 htake
    refine ⟨String.ofList before, String.ofList rest, ?_, ?_⟩
    · rw [← String.ofList_append, ← htext, String.ofList_toList]
    · rw [String.Pos.Raw.ext_iff, String.byteIdx_rawEndPos, ← byteLength_toList, String.toList_ofList]
  · rintro ⟨before, rest, rfl, hn⟩
    rw [String.Pos.Raw.ext_iff, String.byteIdx_rawEndPos, ← byteLength_toList] at hn
    exact ⟨before.toList, takeBytes?_eq_some_iff.2 ⟨hn.symm, rest.toList, String.toList_append⟩⟩

end Provenance.Text

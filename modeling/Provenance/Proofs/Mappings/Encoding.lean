import Provenance.Proofs.Mappings.Numbers
import Provenance.Proofs.Mappings.Segments

/-!
# Mappings texts written and decoded

Segments that are given line by line are written as differences to the running values, and
decoding the text gives back the segments in the order in which they were written
(`decode_encode`).

## Implementation notes

A segment has one of three shapes, so that a name without a place cannot be written. The values
written last are the running values of the decoder, and reading a segment is therefore one step of
an induction over the segments of a line, inside one over the lines.
-/

namespace Provenance.Mappings

open Provenance.Text

/-- What a segment points to. -/
inductive Target
  | unmapped
  | mapped (origin : RawOrigin)
  | named (origin : RawOrigin) (name : UInt32)
  deriving DecidableEq, Repr

/-- A segment of some generated line, with lines and columns counted from 0. -/
structure Mark where
  column : UInt32
  target : Target
  deriving DecidableEq, Repr

namespace Target

/-- Where the segment comes from. -/
def origin? : Target → Option RawOrigin
  | .unmapped => none
  | .mapped origin | .named origin _ => some origin

/-- What the segment is called there. -/
def name? : Target → Option UInt32
  | .named _ name => some name
  | .unmapped | .mapped _ => none

end Target

/-! ## Writing -/

/-- How far it is from one word to another. -/
def difference (start stop : UInt32) : Int := (stop.toNat : Int) - start.toNat

namespace Mark

/-- The mark as it should be decoded on a line. -/
def raw (line : UInt32) (m : Mark) : RawSegment :=
  ⟨line, m.column, m.target.origin?, m.target.name?⟩

/-- The numbers that a mark is written as. -/
def differences (r : Running) (m : Mark) : List Int :=
  match m.target with
  | .unmapped => [difference r.column m.column]
  | .mapped o =>
    [difference r.column m.column, difference r.source o.source, difference r.line o.line,
      difference r.sourceColumn o.column]
  | .named o name =>
    [difference r.column m.column, difference r.source o.source, difference r.line o.line,
      difference r.sourceColumn o.column, difference r.name name]

/-- The text of a mark. -/
def write (r : Running) (m : Mark) : List Char := (m.differences r).flatMap writeNumber

/-- The source and the name of the mark are in the tables. -/
def Refers (tables : Tables) (m : Mark) : Prop :=
  (∀ o ∈ m.target.origin?, o.source.toNat < tables.sources) ∧
    ∀ name ∈ m.target.name?, name.toNat < tables.names

end Mark

/-- The running values after a mark; only what the mark mentions has changed. -/
def Running.after (r : Running) (m : Mark) : Running :=
  match m.target with
  | .unmapped => { r with column := m.column }
  | .mapped o => ⟨m.column, o.source, o.line, o.column, r.name⟩
  | .named o name => ⟨m.column, o.source, o.line, o.column, name⟩

/-- The texts of the marks of one line. -/
def writeMarks : Running → List Mark → List (List Char)
  | _, [] => []
  | r, m :: ms => m.write r :: writeMarks (r.after m) ms

/-- The texts of lines, each of which begins at column 0. -/
def writeLines : Running → List (List Mark) → List (List Char)
  | _, [] => []
  | r, marks :: rest =>
    let r := { r with column := 0 }
    [','].intercalate (writeMarks r marks) :: writeLines (marks.foldl Running.after r) rest

/-- The mappings text of marks that are given line by line. -/
def encode (lines : List (List Mark)) : String :=
  String.ofList ([';'].intercalate (writeLines .zero lines))

/-- The segments of lines, the first of which has the number `line`. -/
def rawsFrom (line : Nat) (lines : List (List Mark)) : List RawSegment :=
  (lines.zipIdx line).flatMap fun p => p.1.map (Mark.raw (UInt32.ofNat p.2))

/-! ## Separators -/

theorem isSome_letterIndex?_of_mem_write {r : Running} {m : Mark} {c : Char}
    (hc : c ∈ m.write r) : (letterIndex? c).isSome = true := by
  obtain ⟨n, -, hn⟩ := List.mem_flatMap.mp hc
  exact isSome_letterIndex?_of_mem_writeBits hn

theorem write_ne_nil (r : Running) (m : Mark) : m.write r ≠ [] := by
  have hdifferences : m.differences r ≠ [] := by
    unfold Mark.differences
    cases m.target <;> exact List.cons_ne_nil _ _
  obtain ⟨n, ns, hns⟩ := List.exists_cons_of_ne_nil hdifferences
  rw [Mark.write, hns, List.flatMap_cons]
  exact List.append_ne_nil_of_left_ne_nil (writeBits_ne_nil _) _

/-- The text of a mark has no character that is no letter. -/
theorem notMem_of_mem_writeMarks {s : Char} (hs : letterIndex? s = none) {r : Running}
    {marks : List Mark} {text : List Char} (ht : text ∈ writeMarks r marks) : s ∉ text := by
  induction marks generalizing r with
  | nil => exact absurd ht List.not_mem_nil
  | cons m ms ih =>
      rw [writeMarks, List.mem_cons] at ht
      rcases ht with rfl | ht
      · intro hmem
        have hsome := isSome_letterIndex?_of_mem_write hmem
        rw [hs] at hsome
        cases hsome
      · exact ih ht

theorem notMem_of_mem_writeLines {r : Running} {lines : List (List Mark)} {text : List Char}
    (ht : text ∈ writeLines r lines) : ';' ∉ text := by
  induction lines generalizing r with
  | nil => exact absurd ht List.not_mem_nil
  | cons marks rest ih =>
      rw [writeLines, List.mem_cons] at ht
      rcases ht with rfl | ht
      · intro hmem
        rcases eq_or_mem_of_mem_intercalate hmem with heq | ⟨text, ht, hmem⟩
        · exact absurd heq (by decide)
        · exact notMem_of_mem_writeMarks (by decide) ht hmem
      · exact ih ht

/-! ## Decoding -/

theorem move_difference (start stop : UInt32) : move start (difference start stop) = stop := by
  have hstop := stop.toNat_lt
  have hsum : (start.toNat : Int) + difference start stop = stop.toNat := by
    rw [difference]
    omega
  rw [move, hsum, Int.emod_eq_of_lt (by omega) (by omega), Int.toNat_natCast, UInt32.ofNat_toNat]

theorem natAbs_difference_lt (start stop : UInt32) : (difference start stop).natAbs < 2 ^ 62 := by
  have hstart := start.toNat_lt
  have hstop := stop.toNat_lt
  rw [difference]
  omega

/-- The numbers of a mark are read from its text. -/
theorem numbers_write (r : Running) (m : Mark) : numbers (m.write r) = .ok (m.differences r) := by
  apply numbers_writeNumber
  intro n hn
  unfold Mark.differences at hn
  cases htarget : m.target <;> rw [htarget] at hn <;>
    simp only [List.mem_cons, List.not_mem_nil, or_false] at hn
  · rw [hn]
    exact natAbs_difference_lt _ _
  · rcases hn with rfl | rfl | rfl | rfl <;> exact natAbs_difference_lt _ _
  · rcases hn with rfl | rfl | rfl | rfl | rfl <;> exact natAbs_difference_lt _ _

/-- Applying the numbers of a mark leads to the mark. -/
theorem applyNumbers_differences {tables : Tables} (line : UInt32) (r : Running) {m : Mark}
    (hm : m.Refers tables) :
    applyNumbers tables line r (m.differences r) = .ok (r.after m, m.raw line) := by
  obtain ⟨column, target⟩ := m
  obtain ⟨hsource, hname⟩ := hm
  cases target with
  | unmapped =>
      simp only [Mark.differences, applyNumbers, move_difference]
      rfl
  | mapped o =>
      have hs : ¬ tables.sources ≤ o.source.toNat := Nat.not_le.mpr (hsource o rfl)
      simp only [Mark.differences, applyNumbers, move_difference, if_neg hs]
      rfl
  | named o name =>
      have hs : ¬ tables.sources ≤ o.source.toNat := Nat.not_le.mpr (hsource o rfl)
      have hn : ¬ tables.names ≤ name.toNat := Nat.not_le.mpr (hname name rfl)
      simp only [Mark.differences, applyNumbers, move_difference, if_neg hs, if_neg hn]
      rfl

theorem decodeLine_writeMarks {tables : Tables} (line : UInt32) (r : Running) {marks : List Mark}
    (hmarks : ∀ m ∈ marks, m.Refers tables) :
    decodeLine tables line r (writeMarks r marks) =
      .ok (marks.foldl Running.after r, marks.map (Mark.raw line)) := by
  induction marks generalizing r with
  | nil => rfl
  | cons m ms ih =>
      rw [writeMarks, decodeLine_cons (write_ne_nil r m), numbers_write]
      simp only [bind, Except.bind, applyNumbers_differences line r (hmarks m List.mem_cons_self),
        ih (r.after m) fun m' hm' => hmarks m' (List.mem_cons_of_mem m hm')]
      rfl

/-- A line without marks is read as one empty text, which counts for nothing. -/
theorem decodeLine_line {tables : Tables} (line : UInt32) (r : Running) {marks : List Mark}
    (hmarks : ∀ m ∈ marks, m.Refers tables) :
    decodeLine tables line r (splitAt ',' ([','].intercalate (writeMarks r marks))) =
      .ok (marks.foldl Running.after r, marks.map (Mark.raw line)) := by
  cases marks with
  | nil => rfl
  | cons m ms =>
      have hne : writeMarks r (m :: ms) ≠ [] := List.cons_ne_nil _ _
      have hcomma : ∀ text ∈ writeMarks r (m :: ms), ',' ∉ text := fun _ ht =>
        notMem_of_mem_writeMarks (by decide) ht
      rw [splitAt_intercalate hne hcomma]
      exact decodeLine_writeMarks line r hmarks

theorem decodeLines_writeLines {tables : Tables} (line : Nat) (r : Running)
    {lines : List (List Mark)} (hlines : ∀ marks ∈ lines, ∀ m ∈ marks, m.Refers tables) :
    decodeLines tables line r (writeLines r lines) = .ok (rawsFrom line lines) := by
  induction lines generalizing line r with
  | nil => rfl
  | cons marks rest ih =>
      have hline := decodeLine_line (UInt32.ofNat line) { r with column := 0 }
        (hlines marks List.mem_cons_self)
      have hrest := ih (line + 1) (marks.foldl Running.after { r with column := 0 })
        fun marks' hmarks' => hlines marks' (List.mem_cons_of_mem marks hmarks')
      simp only [writeLines, decodeLines, bind, Except.bind, hline, hrest]
      rfl

/-- Decoding a text that was written from marks gives the marks, in the order of writing. -/
theorem decode_encode {tables : Tables} {lines : List (List Mark)}
    (hlines : ∀ marks ∈ lines, ∀ m ∈ marks, m.Refers tables) :
    decode tables (encode lines) = .ok (rawsFrom 0 lines) := by
  rw [decode, encode, String.toList_ofList]
  cases lines with
  | nil => rfl
  | cons marks rest =>
      have hne : writeLines .zero (marks :: rest) ≠ [] := List.cons_ne_nil _ _
      have hsemicolon : ∀ text ∈ writeLines .zero (marks :: rest), ';' ∉ text := fun _ ht =>
        notMem_of_mem_writeLines ht
      rw [splitAt_intercalate hne hsemicolon]
      exact decodeLines_writeLines 0 .zero hlines

example : encode [[⟨25, .mapped ⟨0, 0, 10⟩⟩], [], [⟨1, .unmapped⟩, ⟨0, .named ⟨1, 0, 3⟩ 1⟩]] =
    "yBAAU;;C,DCAPC" := by cbv

end Provenance.Mappings

import Mathlib.Data.List.Forall2
import Provenance.Mappings.Decoding

/-!
# Segments of a mappings text

A mappings text that can be decoded has one decoded segment for each of its segments that is not
empty, in the order of the text (`decode_spec`). How many numbers stand in a segment decides what
it has, and what it refers to is in the tables.

## Implementation notes

`Reads` says nothing of the values that the numbers lead to, since these depend on all segments
before. So it can be told of each segment alone and `List.Forall₂` puts it together.
Decoding itself is told as a run (`DecodesLine`, `DecodesLines`), so that whatever is passed on from
segment to segment is followed by induction on the run.
-/

namespace Provenance.Mappings

open Provenance.Text

/-- The texts between the commas of a line that are not empty. -/
def lineSegments (line : List Char) : List (List Char) := (splitAt ',' line).filter (!·.isEmpty)

/-- The texts of the segments of lines, the first of which has the number `line`; with each text
stands the number of its line. -/
def segmentTextsFrom (line : Nat) (texts : List (List Char)) : List (Nat × List Char) :=
  (texts.zipIdx line).flatMap fun p => (lineSegments p.1).map (p.2, ·)

/-- The texts of the segments of a mappings text, each with the number of its line. -/
def segmentTexts (mappings : String) : List (Nat × List Char) :=
  segmentTextsFrom 0 (splitAt ';' mappings.toList)

/-- A segment has one, four or five numbers. It comes from somewhere if it has at least four, and
the fifth is its name. -/
def Shaped (ns : List Int) (mapped named : Bool) : Prop :=
  (ns.length = 1 ∨ ns.length = 4 ∨ ns.length = 5) ∧ (mapped = true ↔ 4 ≤ ns.length) ∧
    (named = true ↔ ns.length = 5)

/-- The decoded segment belongs to the text on the given line. -/
structure Reads (tables : Tables) (line : UInt32) (text : List Char) (raw : RawSegment) :
    Prop where
  line_eq : raw.line = line
  shaped : ∃ ns, numbers text = .ok ns ∧ Shaped ns raw.origin.isSome raw.name.isSome
  source_lt : ∀ o ∈ raw.origin, o.source.toNat < tables.sources
  name_lt : ∀ name ∈ raw.name, name.toNat < tables.names

theorem bind_eq_ok_iff {ε α β : Type} {x : Except ε α} {f : α → Except ε β} {b : β} :
    x >>= f = .ok b ↔ ∃ a, x = .ok a ∧ f a = .ok b := by
  cases x with
  | error e => simp [bind, Except.bind]
  | ok a => simp [bind, Except.bind]

variable {tables : Tables} {line : UInt32} {r r' : Running} {text : List Char} {raw : RawSegment}

/-- What the numbers of a segment lead to, by how many there are. -/
inductive Applied (tables : Tables) (line : UInt32) (r : Running) :
    List Int → Running → RawSegment → Prop
  | bare {column : Int} {r' : Running} (running : r' = { r with column := move r.column column }) :
      Applied tables line r [column] r' ⟨line, r'.column, none, none⟩
  | mapped {column source sourceLine sourceColumn : Int} {r' : Running}
      (running : r' = ⟨move r.column column, move r.source source, move r.line sourceLine,
        move r.sourceColumn sourceColumn, r.name⟩)
      (source_lt : r'.source.toNat < tables.sources) :
      Applied tables line r [column, source, sourceLine, sourceColumn] r'
        ⟨line, r'.column, some ⟨r'.source, r'.line, r'.sourceColumn⟩, none⟩
  | named {column source sourceLine sourceColumn name : Int} {r' : Running}
      (running : r' = ⟨move r.column column, move r.source source, move r.line sourceLine,
        move r.sourceColumn sourceColumn, move r.name name⟩)
      (source_lt : r'.source.toNat < tables.sources) (name_lt : r'.name.toNat < tables.names) :
      Applied tables line r [column, source, sourceLine, sourceColumn, name] r'
        ⟨line, r'.column, some ⟨r'.source, r'.line, r'.sourceColumn⟩, some r'.name⟩

theorem applied_of_applyNumbers {ns : List Int}
    (h : applyNumbers tables line r ns = .ok (r', raw)) : Applied tables line r ns r' raw := by
  unfold applyNumbers at h
  split at h
  · obtain ⟨rfl, rfl⟩ := Prod.mk.inj (Except.ok.inj h)
    exact .bare rfl
  · dsimp only at h
    split at h
    · cases h
    · rename_i hsource
      obtain ⟨rfl, rfl⟩ := Prod.mk.inj (Except.ok.inj h)
      exact .mapped rfl (Nat.not_le.mp hsource)
  · dsimp only at h
    split at h
    · cases h
    · rename_i hsource
      split at h
      · cases h
      · rename_i hname
        obtain ⟨rfl, rfl⟩ := Prod.mk.inj (Except.ok.inj h)
        exact .named rfl (Nat.not_le.mp hsource) (Nat.not_le.mp hname)
  · cases h

/-- Numbers that can be applied lead to a segment of their text. -/
theorem reads_of_applied {ns : List Int} (hns : numbers text = .ok ns)
    (h : Applied tables line r ns r' raw) : Reads tables line text raw := by
  cases h with
  | bare => exact ⟨rfl, ⟨_, hns, by simp [Shaped]⟩, nofun, nofun⟩
  | mapped _ source_lt =>
      refine ⟨rfl, ⟨_, hns, by simp [Shaped]⟩, ?_, nofun⟩
      rintro o ⟨⟩
      exact source_lt
  | named _ source_lt name_lt =>
      refine ⟨rfl, ⟨_, hns, by simp [Shaped]⟩, ?_, ?_⟩
      · rintro o ⟨⟩
        exact source_lt
      · rintro name ⟨⟩
        exact name_lt

/-- A text that is not empty is the text of a segment. -/
theorem decodeLine_cons (htext : text ≠ []) (rest : List (List Char)) :
    decodeLine tables line r (text :: rest) = do
      let ns ← numbers text
      let (r, segment) ← applyNumbers tables line r ns
      let (r, segments) ← decodeLine tables line r rest
      return (r, segment :: segments) := by
  obtain ⟨c, cs, rfl⟩ := List.exists_cons_of_ne_nil htext
  rfl

/-- Texts of segments are decoded one after the other. -/
inductive DecodesLine (tables : Tables) (line : UInt32) :
    Running → List (List Char) → Running → List RawSegment → Prop
  | nil {r : Running} : DecodesLine tables line r [] r []
  | cons {r r₁ r' : Running} {text : List Char} {rest : List (List Char)} {ns : List Int}
      {raw : RawSegment} {raws : List RawSegment} (read : numbers text = .ok ns)
      (applied : Applied tables line r ns r₁ raw) (tail : DecodesLine tables line r₁ rest r' raws) :
      DecodesLine tables line r (text :: rest) r' (raw :: raws)

/-- Lines are decoded one after the other, each from column 0. -/
inductive DecodesLines (tables : Tables) :
    Nat → Running → List (List Char) → List RawSegment → Prop
  | nil {number : Nat} {r : Running} : DecodesLines tables number r [] []
  | cons {number : Nat} {r r₁ : Running} {text : List Char} {rest : List (List Char)}
      {segments more : List RawSegment}
      (line : DecodesLine tables (UInt32.ofNat number) { r with column := 0 } (lineSegments text) r₁
        segments) (tail : DecodesLines tables (number + 1) r₁ rest more) :
      DecodesLines tables number r (text :: rest) (segments ++ more)

/-- The texts of a line that are not empty are those that are decoded. -/
theorem decodesLine_of_decodeLine {texts : List (List Char)} {raws : List RawSegment}
    (h : decodeLine tables line r texts = .ok (r', raws)) :
    DecodesLine tables line r (texts.filter (!·.isEmpty)) r' raws := by
  induction texts generalizing r raws with
  | nil =>
      obtain ⟨rfl, rfl⟩ := Prod.mk.inj (Except.ok.inj h)
      exact .nil
  | cons text rest ih =>
      cases text with
      | nil => exact ih h
      | cons c cs =>
          rw [decodeLine_cons (List.cons_ne_nil c cs)] at h
          obtain ⟨ns, hns, h⟩ := bind_eq_ok_iff.mp h
          obtain ⟨⟨r₁, raw⟩, hraw, h⟩ := bind_eq_ok_iff.mp h
          obtain ⟨⟨r₂, more⟩, hmore, h⟩ := bind_eq_ok_iff.mp h
          obtain ⟨rfl, rfl⟩ := Prod.mk.inj (Except.ok.inj h)
          exact .cons hns (applied_of_applyNumbers hraw) (ih hmore)

theorem decodesLines_of_decodeLines {number : Nat} {texts : List (List Char)}
    {raws : List RawSegment} (h : decodeLines tables number r texts = .ok raws) :
    DecodesLines tables number r texts raws := by
  induction texts generalizing number r raws with
  | nil =>
      obtain rfl := Except.ok.inj h
      exact .nil
  | cons text rest ih =>
      rw [decodeLines] at h
      obtain ⟨⟨r₁, segments⟩, hline, h⟩ := bind_eq_ok_iff.mp h
      obtain ⟨more, hmore, h⟩ := bind_eq_ok_iff.mp h
      obtain rfl := Except.ok.inj h
      exact .cons (decodesLine_of_decodeLine hline) (ih hmore)

/-- A decoded line has one decoded segment for each text. -/
theorem DecodesLine.reads {texts : List (List Char)} {raws : List RawSegment}
    (h : DecodesLine tables line r texts r' raws) :
    List.Forall₂ (Reads tables line) texts raws := by
  induction h with
  | nil => exact .nil
  | cons read applied _ ih => exact .cons (reads_of_applied read applied) ih

theorem DecodesLines.reads {number : Nat} {texts : List (List Char)} {raws : List RawSegment}
    (h : DecodesLines tables number r texts raws) :
    List.Forall₂ (fun p => Reads tables (UInt32.ofNat p.1) p.2)
      (segmentTextsFrom number texts) raws := by
  induction h with
  | nil => exact .nil
  | cons line _ ih =>
      rw [segmentTextsFrom, List.zipIdx_cons, List.flatMap_cons]
      apply List.rel_append
      · rw [List.forall₂_map_left_iff]
        exact line.reads
      · exact ih

/-- A text that can be decoded has one decoded segment for each of its segments, in order. -/
theorem decode_spec {mappings : String} {raws : List RawSegment}
    (h : decode tables mappings = .ok raws) :
    List.Forall₂ (fun p => Reads tables (UInt32.ofNat p.1) p.2) (segmentTexts mappings) raws :=
  (decodesLines_of_decodeLines h).reads

end Provenance.Mappings

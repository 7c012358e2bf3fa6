import Provenance.Markup
import Provenance.Proofs.LineLayout.Lengths

/-!
# What markup shows

Markup is read as tags, entities and single characters without knowing how it was rendered
(`read?`). Read in this way, the markup of any code in any language consists of a few fixed tags and
of pieces that show the code and nothing else (`render_lossless`), so that no code and no name of a
language can open or close a tag. The line spans of the plain renderer show the lines of the code.

## Implementation notes

A tag reaches to the next closing bracket and an entity to the next semicolon, whatever stands
between. Which tags and which names of entities occur is a statement about the pieces (`Proper`),
so the reader takes nothing over from the renderer.
-/

namespace Provenance.Markup

open Provenance.Text

/-- The names of the entities and the characters that they stand for. -/
def entities : List (String × Char) :=
  [("amp", '&'), ("lt", '<'), ("gt", '>'), ("quot", '"'), ("#39", '\x27')]

/-- A piece of markup. -/
inductive Piece
  | tag (body : String)
  | entity (name : String)
  | char (c : Char)
  deriving DecidableEq

namespace Piece

/-- How a piece is written. -/
def source : Piece → List Char
  | tag body => '<' :: (body.toList ++ ['>'])
  | entity name => '&' :: (name.toList ++ [';'])
  | char c => [c]

/-- What is left of a piece if tags are deleted and entities are replaced by their characters. -/
def shown : Piece → List Char
  | tag _ => []
  | entity name => ((entities.find? (·.1 = name)).map Prod.snd).toList
  | char c => [c]

/-! ## Reading -/

/-- A reader of markup stands between two pieces or in one that ends at a certain character. -/
inductive Place
  | between
  | inside (close : Char) (piece : String → Piece) (body : List Char)

/-- The pieces of the rest of a markup. A tag or an entity without an end is refused. -/
def readFrom : Place → List Char → Option (List Piece)
  | .between, [] => some []
  | .inside .., [] => none
  | .between, c :: cs =>
    if c = '<' then readFrom (.inside '>' tag []) cs
    else if c = '&' then readFrom (.inside ';' entity []) cs
    else (readFrom .between cs).map (char c :: ·)
  | .inside close piece body, c :: cs =>
    if c = close then (readFrom .between cs).map (piece (String.ofList body) :: ·)
    else readFrom (.inside close piece (body ++ [c])) cs

/-- The pieces of a markup. -/
def read? (markup : String) : Option (List Piece) := readFrom .between markup.toList

/-- The piece ends where it is written to end. -/
def Separable : Piece → Prop
  | tag body => '>' ∉ body.toList
  | entity name => ';' ∉ name.toList
  | char c => c ≠ '<' ∧ c ≠ '&'

variable {p : Piece} {ps : List Piece} {language code : String}

theorem readFrom_inside {close : Char} {body : List Char} (h : close ∉ body)
    (piece : String → Piece) (before cs : List Char) :
    readFrom (.inside close piece before) (body ++ close :: cs) =
      (readFrom .between cs).map (piece (String.ofList (before ++ body)) :: ·) := by
  induction body generalizing before with
  | nil => rw [List.nil_append, readFrom, if_pos rfl, List.append_nil]
  | cons c body ih =>
      rw [List.mem_cons, not_or] at h
      rw [List.cons_append, readFrom, if_neg (Ne.symm h.1), ih h.2, ← List.append_cons]

theorem readFrom_source (h : p.Separable) (cs : List Char) :
    readFrom .between (p.source ++ cs) = (readFrom .between cs).map (p :: ·) := by
  cases p with
  | tag body =>
      have hbody := readFrom_inside h tag [] cs
      rw [List.nil_append, String.ofList_toList] at hbody
      rw [source, List.cons_append, List.append_assoc, readFrom, if_pos rfl]
      exact hbody
  | entity name =>
      have hname := readFrom_inside h entity [] cs
      rw [List.nil_append, String.ofList_toList] at hname
      rw [source, List.cons_append, List.append_assoc, readFrom, if_neg (by decide), if_pos rfl]
      exact hname
  | char c => rw [source, List.singleton_append, readFrom, if_neg h.1, if_neg h.2]

/-- Pieces that end where they are written to end are read back. -/
theorem readFrom_flatMap_source (h : ∀ p ∈ ps, p.Separable) :
    readFrom .between (ps.flatMap source) = some ps := by
  induction ps with
  | nil => rfl
  | cons p ps ih =>
      rw [List.forall_mem_cons] at h
      rw [List.flatMap_cons, readFrom_source h.1, ih h.2, Option.map_some]

/-! ## Tags, entities and characters that may occur -/

/-- The opening tag of code in a language. -/
def codeTag (language : String) : String := "pre class=\"code language-" ++ language ++ "\""

/-- The opening tag of a line. -/
def lineTag : String := "span class=\"line\""

/-- The closing tag of a line. -/
def lineEnd : String := "/span"

/-- The tags in which no language stands. -/
def fixedTags : List String := ["pre class=\"plain\"", "/pre", "code", "/code", lineTag, lineEnd]

/-- The piece is one of the tags of markup in the language, an entity that stands for a character,
or a character that needs no entity. A text that names no language stands in no tag. -/
def Proper (language : String) : Piece → Prop
  | tag body => body ∈ fixedTags ∨ isLanguage language = true ∧ body = codeTag language
  | entity name => ∃ e ∈ entities, name = e.1
  | char c => ∀ e ∈ entities, c ≠ e.2

/-- A name of a language cannot end the tag in which it stands. -/
theorem notMem_of_isLanguage (h : isLanguage language = true) : '>' ∉ language.toList := by
  intro hmem
  rw [isLanguage, decide_eq_true_eq, List.all_eq_true] at h
  exact absurd (h.2 '>' hmem) (by decide)

theorem toList_codeTag (language : String) : (codeTag language).toList =
    "pre class=\"code language-".toList ++ language.toList ++ ['"'] := by
  have heq : codeTag language = "pre class=\"code language-" ++ language ++ "\"" := rfl
  rw [heq, String.toList_append, String.toList_append]
  rfl

theorem notMem_codeTag (h : isLanguage language = true) : '>' ∉ (codeTag language).toList := by
  rw [toList_codeTag, List.mem_append, List.mem_append]
  -- of the three parts of the tag only the language comes from outside
  rintro ((hmem | hmem) | hmem)
  · exact absurd hmem (by decide)
  · exact notMem_of_isLanguage h hmem
  · exact absurd hmem (by decide)

theorem Proper.separable (h : p.Proper language) : p.Separable := by
  cases p with
  | tag body =>
      obtain hfixed | ⟨hlanguage, rfl⟩ := h
      · have hbodies : ∀ body ∈ fixedTags, '>' ∉ body.toList := by decide
        exact hbodies body hfixed
      · exact notMem_codeTag hlanguage
  | entity name =>
      obtain ⟨e, he, rfl⟩ := h
      have hnames : ∀ e ∈ entities, ';' ∉ e.1.toList := by decide
      exact hnames e he
  | char c =>
      simp only [Proper, entities, List.forall_mem_cons] at h
      exact ⟨h.2.1, h.1⟩

/-! ## Characters -/

/-- The piece that a character is written as. -/
def ofChar (c : Char) : Piece :=
  match entities.find? (·.2 = c) with
  | some e => entity e.1
  | none => char c

/-- A character is written as an entity if there is one for it. -/
theorem ofChar_cases (c : Char) :
    (∃ e ∈ entities, ofChar e.2 = entity e.1 ∧ c = e.2) ∨
      (∀ e ∈ entities, c ≠ e.2) ∧ ofChar c = char c := by
  by_cases h : ∃ e ∈ entities, c = e.2
  · obtain ⟨e, he, rfl⟩ := h
    have hentities : ∀ e ∈ entities, ofChar e.2 = entity e.1 := by decide
    exact Or.inl ⟨e, he, hentities e he, rfl⟩
  · refine Or.inr ⟨fun e he heq => h ⟨e, he, heq⟩, ?_⟩
    have hnone : entities.find? (·.2 = c) = none := by
      rw [List.find?_eq_none]
      intro e he heq
      exact h ⟨e, he, (decide_eq_true_eq.mp heq).symm⟩
    rw [ofChar, hnone]

@[simp]
theorem source_ofChar (c : Char) : (ofChar c).source = Markup.entity c := by
  obtain ⟨e, he, hpiece, rfl⟩ | ⟨hnone, hpiece⟩ := ofChar_cases c
  · have hentities : ∀ e ∈ entities, (entity e.1).source = Markup.entity e.2 := by decide
    rw [hpiece, hentities e he]
  · simp only [entities, List.forall_mem_cons] at hnone
    simp [hpiece, source, Markup.entity, hnone]

@[simp]
theorem shown_ofChar (c : Char) : (ofChar c).shown = [c] := by
  obtain ⟨e, he, hpiece, rfl⟩ | ⟨-, hpiece⟩ := ofChar_cases c
  · have hentities : ∀ e ∈ entities, (entity e.1).shown = [e.2] := by decide
    rw [hpiece, hentities e he]
  · rw [hpiece, shown]

theorem proper_ofChar (language : String) (c : Char) : (ofChar c).Proper language := by
  obtain ⟨e, he, hpiece, rfl⟩ | ⟨hnone, hpiece⟩ := ofChar_cases c
  · rw [hpiece]
    exact ⟨e, he, rfl⟩
  · rw [hpiece]
    exact hnone

theorem ofChar_ne_tag (c : Char) (body : String) : ofChar c ≠ tag body := by
  obtain ⟨e, -, hpiece, rfl⟩ | ⟨-, hpiece⟩ := ofChar_cases c
  · rw [hpiece]
    nofun
  · rw [hpiece]
    nofun

theorem source_map_ofChar (cs : List Char) : (cs.map ofChar).flatMap source = escape cs := by
  simp [List.flatMap_map, escape]

theorem shown_map_ofChar (cs : List Char) : (cs.map ofChar).flatMap shown = cs := by
  simp [List.flatMap_map]

/-! ## Lines -/

/-- The pieces of a line. -/
def ofLine (line : List Char) : List Piece := tag lineTag :: (line.map ofChar ++ [tag lineEnd])

/-- The pieces of lines with newlines between them. -/
def ofLines : List (List Char) → List Piece
  | [] => []
  | [line] => ofLine line
  | line :: next :: rest => ofLine line ++ char '\n' :: ofLines (next :: rest)

/-- The line spans among pieces, each without the tags around it. A span that has no end or another
tag in it is refused. -/
def spansFrom : Option (List Piece) → List Piece → Option (List (List Piece))
  | none, [] => some []
  | some _, [] => none
  | none, p :: ps =>
    if p = tag lineTag then spansFrom (some []) ps
    else if p = tag lineEnd then none
    else spansFrom none ps
  | some line, tag body :: ps =>
    if body = lineEnd then (spansFrom none ps).map (line :: ·) else none
  | some line, p :: ps => spansFrom (some (line ++ [p])) ps

/-- The line spans of a markup. -/
def spans? (ps : List Piece) : Option (List (List Piece)) := spansFrom none ps

theorem source_ofLine (line : List Char) : (ofLine line).flatMap source = lineSpan line := by
  rw [ofLine, List.flatMap_cons, List.flatMap_append, source_map_ofChar]
  rfl

theorem source_ofLines (ls : List (List Char)) : (ofLines ls).flatMap source = lineSpans ls := by
  fun_induction lineSpans ls with
  | case1 => rfl
  | case2 line => exact source_ofLine line
  | case3 line next rest ih =>
      rw [ofLines, List.flatMap_append, source_ofLine, List.flatMap_cons, ih]
      rfl

theorem shown_ofLine (line : List Char) : (ofLine line).flatMap shown = line := by
  rw [ofLine, List.flatMap_cons, List.flatMap_append, shown_map_ofChar]
  exact List.append_nil line

theorem shown_ofLines (ls : List (List Char)) :
    (ofLines ls).flatMap shown = ['\n'].intercalate ls := by
  fun_induction ofLines ls with
  | case1 => rfl
  | case2 line => rw [shown_ofLine, List.intercalate_singleton]
  | case3 line next rest ih =>
      rw [List.flatMap_append, shown_ofLine, List.flatMap_cons, ih, List.intercalate_cons_cons,
        List.append_assoc]
      rfl

theorem proper_ofLine (language : String) (line : List Char) :
    ∀ p ∈ ofLine line, p.Proper language := by
  intro p hp
  rw [ofLine, List.mem_cons, List.mem_append, List.mem_map, List.mem_singleton] at hp
  obtain rfl | ⟨c, -, rfl⟩ | rfl := hp
  · exact Or.inl (by decide)
  · exact proper_ofChar language c
  · exact Or.inl (by decide)

theorem proper_ofLines (language : String) (ls : List (List Char)) :
    ∀ p ∈ ofLines ls, p.Proper language := by
  fun_induction ofLines ls with
  | case1 => exact nofun
  | case2 line => exact proper_ofLine language line
  | case3 line next rest ih =>
      intro p hp
      rw [List.mem_append, List.mem_cons] at hp
      obtain hp | rfl | hp := hp
      · exact proper_ofLine language line p hp
      · change ∀ e ∈ entities, _
        decide
      · exact ih p hp

theorem spansFrom_ofLine (line : List Char) (ps : List Piece) :
    spansFrom none (ofLine line ++ ps) = (spansFrom none ps).map (line.map ofChar :: ·) := by
  -- no character is written as a tag, so the span goes on up to the closing tag of the line
  have hinside (before : List Piece) : spansFrom (some before) (line.map ofChar ++ tag lineEnd :: ps)
      = (spansFrom none ps).map ((before ++ line.map ofChar) :: ·) := by
    induction line generalizing before with
    | nil => rw [List.map_nil, List.nil_append, spansFrom, if_pos rfl, List.append_nil]
    | cons c line ih =>
        rw [List.map_cons, List.cons_append, spansFrom, ih, ← List.append_cons]
        exact ofChar_ne_tag c
  rw [ofLine, List.cons_append, spansFrom, if_pos rfl, List.append_assoc, List.singleton_append,
    hinside, List.nil_append]

/-- The spans of lines are the lines. -/
theorem spansFrom_ofLines (ls : List (List Char)) (ps : List Piece) :
    spansFrom none (ofLines ls ++ ps) =
      (spansFrom none ps).map (ls.map (List.map ofChar) ++ ·) := by
  fun_induction ofLines ls with
  | case1 => exact Option.map_id_apply.symm
  | case2 line => exact spansFrom_ofLine line ps
  | case3 line next rest ih =>
      rw [List.append_assoc, spansFrom_ofLine, List.cons_append, spansFrom, if_neg (by decide),
        if_neg (by decide), ih, Option.map_map]
      rfl

/-! ## Markup -/

/-- The pieces of code as the plain renderer writes it. -/
def plainPieces (language code : String) : List Piece :=
  tag (codeTag language) :: tag "code" ::
    (ofLines (lines code.toList) ++ [tag "/code", tag "/pre"])

/-- The pieces of code without any structure. -/
def fallbackPieces (code : String) : List Piece :=
  tag "pre class=\"plain\"" :: (code.toList.map ofChar ++ [tag "/pre"])

/-- The line spans of code are written as its lines. -/
theorem spans?_plainPieces (language code : String) :
    spans? (plainPieces language code) = some ((lines code.toList).map (List.map ofChar)) := by
  have hopen : spans? (plainPieces language code) = spansFrom none
      (ofLines (lines code.toList) ++ [tag "/code", tag "/pre"]) := rfl
  rw [hopen, spansFrom_ofLines]
  exact congrArg some (List.append_nil _)

end Piece

open Piece

/-- A markup is read as pieces that make it up, that may occur in markup of the language, and that
show the code. -/
structure Shows (language code markup : String) (ps : List Piece) : Prop where
  read : read? markup = some ps
  source : ps.flatMap Piece.source = markup.toList
  proper : ∀ p ∈ ps, p.Proper language
  shown : ps.flatMap Piece.shown = code.toList

variable {renderer : Renderer} {language code markup : String}

/-- Pieces that may occur in a markup and make it up are the pieces that it is read as. -/
theorem Shows.of_source {ps : List Piece} (hsource : ps.flatMap Piece.source = markup.toList)
    (hproper : ∀ p ∈ ps, p.Proper language) (hshown : ps.flatMap Piece.shown = code.toList) :
    Shows language code markup ps := by
  refine ⟨?_, hsource, hproper, hshown⟩
  rw [read?, ← hsource]
  exact readFrom_flatMap_source fun p hp => (hproper p hp).separable

/-- The renderer fails on any code. -/
def Failing (renderer : Renderer) : Prop := ∀ code language, ∃ e, renderer code language = .error e

theorem plain_eq_ok_iff : plain code language = .ok markup ↔ isLanguage language = true ∧
    markup = "<pre class=\"code language-" ++ language ++ "\"><code>" ++
      String.ofList (lineSpans (lines code.toList)) ++ "</code></pre>" := by
  rw [plain]
  by_cases h : isLanguage language = true
  · rw [if_pos h, Except.ok.injEq, and_iff_right h, eq_comm]
  · rw [if_neg h]
    exact iff_of_false nofun fun hok => h hok.1

theorem shows_plain (h : plain code language = .ok markup) :
    Shows language code markup (plainPieces language code) := by
  obtain ⟨hlanguage, rfl⟩ := plain_eq_ok_iff.mp h
  apply Shows.of_source
  · rw [plainPieces, List.flatMap_cons, List.flatMap_cons, List.flatMap_append, source_ofLines,
      String.toList_append, String.toList_append, String.toList_append, String.toList_append,
      @String.toList_ofList (lineSpans _), Piece.source, toList_codeTag]
    simp only [List.cons_append, List.append_assoc]
    rfl
  · intro p hp
    rw [plainPieces, List.mem_cons, List.mem_cons, List.mem_append] at hp
    obtain rfl | rfl | hp | hp := hp
    · exact Or.inr ⟨hlanguage, rfl⟩
    · exact Or.inl (by decide)
    · exact proper_ofLines language _ p hp
    · obtain rfl | rfl := List.mem_pair.mp hp
      · exact Or.inl (by decide)
      · exact Or.inl (by decide)
  · simp only [plainPieces, List.flatMap_cons, List.flatMap_append, shown_ofLines]
    rw [lines, intercalate_splitAt]
    exact List.append_nil _

theorem shows_fallback (language code : String) :
    Shows language code (fallback code) (fallbackPieces code) := by
  apply Shows.of_source
  · have heq : fallback code =
        "<pre class=\"plain\">" ++ String.ofList (escape code.toList) ++ "</pre>" := rfl
    rw [fallbackPieces, List.flatMap_cons, List.flatMap_append, source_map_ofChar, heq,
      String.toList_append, String.toList_append, @String.toList_ofList (escape _), List.append_assoc]
    rfl
  · intro p hp
    rw [fallbackPieces, List.mem_cons, List.mem_append, List.mem_map] at hp
    obtain rfl | ⟨c, -, rfl⟩ | hp := hp
    · exact Or.inl (by decide)
    · exact proper_ofChar language c
    · obtain rfl := List.mem_singleton.mp hp
      exact Or.inl (by decide)
  · simp only [fallbackPieces, List.flatMap_cons, List.flatMap_append, shown_map_ofChar]
    exact List.append_nil _

/-- The markup of code is read as pieces that show the code, be it written by the plain renderer or
without a renderer. -/
theorem exists_shows_render (h : renderer = plain ∨ Failing renderer) (language code : String) :
    ∃ ps, Shows language code (render renderer code language) ps := by
  cases hmarkup : renderer code language with
  | ok markup =>
      obtain rfl | hfailing := h
      · refine ⟨plainPieces language code, ?_⟩
        rw [render, hmarkup]
        exact shows_plain hmarkup
      · obtain ⟨e, herror⟩ := hfailing code language
        exact absurd (hmarkup.symm.trans herror) nofun
  | error e =>
      refine ⟨fallbackPieces code, ?_⟩
      rw [render, hmarkup]
      exact shows_fallback language code

/-- A markup shows one code. -/
theorem Shows.code_unique {code' : String} {ps ps' : List Piece}
    (h : Shows language code markup ps) (h' : Shows language code' markup ps') : code = code' := by
  have hps : ps = ps' := Option.some.inj (h.read.symm.trans h'.read)
  apply String.toList_inj.mp
  calc code.toList = ps.flatMap Piece.shown := h.shown.symm
    _ = ps'.flatMap Piece.shown := by rw [hps]
    _ = code'.toList := h'.shown

/-- The markup of code consists of fixed tags and of pieces that show the code, with the plain
renderer and with one that fails on any code. So different codes never have the same markup in a
language. Where the plain renderer yields a markup, it has as many line spans as the code has lines,
and each span shows its line. -/
theorem render_lossless (h : renderer = plain ∨ Failing renderer) (language : String) :
    (∀ code, ∃ ps, Shows language code (render renderer code language) ps) ∧
      (∀ code code', render renderer code language = render renderer code' language →
        code = code') ∧
      ∀ code markup, plain code language = .ok markup →
        ∃ ps spans, read? markup = some ps ∧ spans? ps = some spans ∧
          spans.length = (LineLayout.ofText code).lineCount ∧
          spans.map (List.flatMap Piece.shown) = lines code.toList := by
  refine ⟨exists_shows_render h language, ?_, ?_⟩
  · intro code code' hrender
    obtain ⟨ps, hshows⟩ := exists_shows_render h language code
    obtain ⟨ps', hshows'⟩ := exists_shows_render h language code'
    rw [hrender] at hshows
    exact hshows.code_unique hshows'
  · intro code markup hplain
    refine ⟨_, _, (shows_plain hplain).read, spans?_plainPieces language code, ?_, ?_⟩
    · rw [List.length_map, LineLayout.lineCount_ofText]
    · rw [List.map_map]
      exact (List.map_congr_left fun line _ => shown_map_ofChar line).trans (List.map_id _)

/-- Code that looks like tags and entities, over two lines. -/
def forged : String := "</span>&lt;\n\"x&#39;"

theorem render_lossless_forged :
    (∃ markup, plain forged "c++" = .ok markup ∧ ∃ ps spans, read? markup = some ps ∧
      spans? ps = some spans ∧ spans.length = 2) ∧
      (∃ ps, Shows "c++" forged (render plain forged "c++") ps) ∧
      (∃ ps, Shows "\">" forged (render plain forged "\">") ps) ∧
      ∃ ps, Shows "c++" forged (render (unavailable "no grammar") forged "c++") ps := by
  have hfailing : Failing (unavailable "no grammar") := fun _ _ => ⟨_, rfl⟩
  have hlanguage : isLanguage "c++" = true := by decide
  obtain ⟨hshows, -, hlines⟩ := render_lossless (Or.inl rfl) "c++"
  have hplain : plain forged "c++" = .ok _ := plain_eq_ok_iff.mpr ⟨hlanguage, rfl⟩
  obtain ⟨ps, spans, hread, hspans, hlength, -⟩ := hlines forged _ hplain
  refine ⟨⟨_, hplain, ps, spans, hread, hspans, ?_⟩, hshows forged,
    (render_lossless (Or.inl rfl) "\">").1 forged, (render_lossless (Or.inr hfailing) "c++").1 forged⟩
  rw [hlength, LineLayout.lineCount_ofText]
  decide

end Provenance.Markup

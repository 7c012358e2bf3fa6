import Provenance.Focus
import Provenance.Proofs.Atlas.Tables

/-!
# What a focus was told

A focus is told cursors, generated texts with or without an atlas, names of the source, and that
its atlas is outdated, in any order. Its highlight depends on the latest of these alone, so a fresh
focus that is told them in any order has the same highlight.

## Implementation notes

`last?` picks the latest input of a kind out of all of them without running the focus. A text
without an atlas and the loss of an atlas are of the same kind as a text with one, since either
ends what an earlier one began.

Losing the atlas leaves the layout of the last text behind. `Reflects` speaks of the layout only
where there is an atlas, which is the only place where it is read.
-/

namespace Provenance.Focus

/-- Something that a focus is told. -/
inductive Input
  | moveTo (cursor : Position)
  | install (atlas : Option Atlas) (generated : String)
  | dropAtlas
  | rename (sourceName : String)
  deriving DecidableEq, Repr

namespace Input

/-- The cursor that the input sets. -/
def cursor? : Input → Option Position
  | .moveTo cursor => some cursor
  | _ => none

/-- The name that the input sets. -/
def sourceName? : Input → Option String
  | .rename sourceName => some sourceName
  | _ => none

/-- What the input leaves to look positions up in, an atlas of a text or nothing. -/
def chart? : Input → Option (Option (Atlas × String))
  | .install atlas generated => some (atlas.map (·, generated))
  | .dropAtlas => some none
  | _ => none

end Input

/-- The focus after an input. -/
def take (f : Focus) : Input → Focus
  | .moveTo cursor => f.moveTo cursor
  | .install atlas generated => f.install atlas generated
  | .dropAtlas => f.dropAtlas
  | .rename sourceName => f.rename sourceName

/-- The focus after some inputs, first the oldest. -/
def takeAll (f : Focus) (inputs : List Input) : Focus := inputs.foldl take f

/-- What the latest input that tells anything of the kind tells. -/
def last? {α : Type} (tells : Input → Option α) (inputs : List Input) : Option α :=
  (inputs.filterMap tells).getLast?

/-- The inputs that tell a name, and a cursor and a text with its atlas where there are such. -/
def telling (sourceName : String) (cursor : Option Position)
    (chart : Option (Atlas × String)) : List Input :=
  .rename sourceName :: ((cursor.map Input.moveTo).toList ++
    (chart.map fun c => Input.install (some c.1) c.2).toList)

/-- The inputs that still matter: the last name, the last cursor and the last text, if that had an
atlas which was not lost since. -/
def latest (name : String) (inputs : List Input) : List Input :=
  telling ((last? Input.sourceName? inputs).getD name) (last? Input.cursor? inputs)
    (last? Input.chart? inputs).join

/-- The highlight of a cursor in a text, if there are an atlas and a cursor. -/
def highlightIn (chart : Option (Atlas × String)) (cursor : Option Position)
    (sourceName : String) : Option Highlight := do
  let (atlas, generated) ← chart
  let cursor ← cursor
  highlightAt? atlas (.ofText generated) sourceName cursor

variable {α : Type} {name : String} {inputs given : List Input} {f : Focus}

theorem last?_concat (tells : Input → Option α) (inputs : List Input) (i : Input) :
    last? tells (inputs ++ [i]) = (tells i).or (last? tells inputs) := by
  rw [last?, List.filterMap_append, List.getLast?_append, last?]
  cases h : tells i <;> simp [h]

/-- Where at most one input tells anything of the kind, the order of the inputs does not matter. -/
theorem last?_eq_of_perm {tells : Input → Option α} {l : List Input} {o : Option α}
    (h : given.Perm l) (hl : l.filterMap tells = o.toList) : last? tells given = o := by
  have hperm : (given.filterMap tells).Perm o.toList := hl ▸ h.filterMap tells
  rw [last?]
  cases o with
  | none => rw [List.perm_nil.mp hperm, List.getLast?_nil]
  | some a => rw [List.perm_singleton.mp hperm, List.getLast?_singleton]

/-! ## One input -/

theorem take_sourceName (f : Focus) (i : Input) :
    (f.take i).sourceName = i.sourceName?.getD f.sourceName := by
  cases i <;> rfl

theorem take_cursor (f : Focus) (i : Input) : (f.take i).cursor = i.cursor?.or f.cursor := by
  cases i <;> rfl

theorem take_atlas (f : Focus) (i : Input) :
    (f.take i).atlas = (i.chart?.map (·.map Prod.fst)).getD f.atlas := by
  cases i with
  | install atlas generated => cases atlas <;> rfl
  | moveTo | dropAtlas | rename => rfl

theorem take_layout_of_chart? {c : Atlas × String} {i : Input} (h : i.chart? = some (some c)) :
    (f.take i).layout = .ofText c.2 := by
  cases i with
  | install atlas generated =>
      obtain ⟨a, -, rfl⟩ := Option.map_eq_some_iff.mp (Option.some.inj h)
      rfl
  | moveTo | dropAtlas | rename => cases h

theorem take_layout_of_chart?_eq_none {i : Input} (h : i.chart? = none) :
    (f.take i).layout = f.layout := by
  cases i with
  | install | dropAtlas => cases h
  | moveTo | rename => rfl

/-- Every input derives the highlight anew, whatever it was before. -/
theorem refresh_take (f : Focus) (i : Input) : (f.take i).refresh = f.take i := by
  cases i <;> rfl

/-! ## All inputs -/

/-- The focus is what the latest inputs make it. -/
structure Reflects (name : String) (inputs : List Input) (f : Focus) : Prop where
  sourceName : f.sourceName = (last? Input.sourceName? inputs).getD name
  cursor : f.cursor = last? Input.cursor? inputs
  atlas : f.atlas = (last? Input.chart? inputs).join.map Prod.fst
  layout : ∀ c, (last? Input.chart? inputs).join = some c → f.layout = .ofText c.2
  refreshed : f.refresh = f

namespace Reflects

theorem begin (name : String) : Reflects name [] (ofName name) :=
  ⟨rfl, rfl, rfl, nofun, rfl⟩

theorem take (h : Reflects name inputs f) (i : Input) :
    Reflects name (inputs ++ [i]) (f.take i) where
  sourceName := by
    rw [take_sourceName, last?_concat, h.sourceName]
    cases i.sourceName? <;> rfl
  cursor := by rw [take_cursor, last?_concat, h.cursor]
  atlas := by
    rw [take_atlas, last?_concat, h.atlas]
    cases i.chart? <;> rfl
  layout := by
    intro c hc
    rw [last?_concat] at hc
    cases hi : i.chart? with
    | none =>
        rw [hi, Option.none_or] at hc
        rw [take_layout_of_chart?_eq_none hi, h.layout c hc]
    | some chart =>
        rw [hi, Option.some_or, Option.join_some] at hc
        exact take_layout_of_chart? (hi.trans (congrArg some hc))
  refreshed := refresh_take f i

theorem takeAll (h : Reflects name inputs f) (later : List Input) :
    Reflects name (inputs ++ later) (f.takeAll later) := by
  induction later generalizing inputs f with
  | nil =>
      rw [List.append_nil]
      exact h
  | cons i later ih =>
      rw [List.append_cons]
      exact ih (h.take i)

/-- What is shown is the highlight of the last cursor in the last text. -/
theorem highlight_eq (h : Reflects name inputs f) :
    f.highlight = highlightIn (last? Input.chart? inputs).join (last? Input.cursor? inputs)
      ((last? Input.sourceName? inputs).getD name) := by
  rw [← h.refreshed, refresh, h.atlas, h.cursor, h.sourceName, highlightIn]
  cases hc : (last? Input.chart? inputs).join with
  | none => rfl
  | some c =>
      rw [h.layout c hc]
      rfl

end Reflects

theorem reflects_ofName (name : String) (inputs : List Input) :
    Reflects name inputs ((ofName name).takeAll inputs) := by
  simpa using (Reflects.begin name).takeAll inputs

/-! ## The latest inputs -/

/-- Inputs say what they tell in whatever order they come. -/
theorem last?_of_perm_telling {sourceName : String} {cursor : Option Position}
    {chart : Option (Atlas × String)} (h : given.Perm (telling sourceName cursor chart)) :
    last? Input.sourceName? given = some sourceName ∧ last? Input.cursor? given = cursor ∧
      (last? Input.chart? given).join = chart := by
  refine ⟨last?_eq_of_perm h ?_, last?_eq_of_perm h ?_, ?_⟩
  · cases cursor <;> cases chart <;> rfl
  · cases cursor <;> cases chart <;> rfl
  · have hchart : last? Input.chart? given = chart.map some :=
      last?_eq_of_perm h (by cases cursor <;> cases chart <;> rfl)
    rw [hchart]
    cases chart <;> rfl

/-- Whatever a focus was told, its highlight is that of the last cursor in the last text under the
last name, where there are an atlas and a cursor. Line and runs are there together, and another
focus that is told these latest inputs only, in whatever order, has the same highlight. -/
theorem highlight_of_latest {other : String} (h : given.Perm (latest name inputs)) :
    let f := (ofName name).takeAll inputs
    f.refresh = f ∧
      f.highlight = highlightIn (last? Input.chart? inputs).join (last? Input.cursor? inputs)
        ((last? Input.sourceName? inputs).getD name) ∧
      ((f.highlight.map Highlight.line).isSome = true ↔
        (f.highlight.map Highlight.runs).isSome = true) ∧
      ((ofName other).takeAll given).highlight = f.highlight := by
  intro f
  have hreflects := reflects_ofName name inputs
  have hf : f.highlight = _ := hreflects.highlight_eq
  refine ⟨hreflects.refreshed, hf, ?_, ?_⟩
  · rw [Option.isSome_map, Option.isSome_map]
  · obtain ⟨hname, hcursor, hchart⟩ := last?_of_perm_telling h
    rw [(reflects_ofName other given).highlight_eq, hname, hcursor, hchart, hf, Option.getD_some]

/-- A map of one generated line, whose columns from 2 to 4 come from two source lines. -/
def splitLineMap : SourceMap := ⟨3, none, ["Demo.tsx"], [], "EAAU,CAAC,CACX,C", none, none⟩

/-- The atlas of `splitLineMap`. -/
def splitLineAtlas : Atlas where
  sources := #["Demo.tsx"]
  sourceRoot := none
  contents := #[none]
  names := #[]
  segments := #[⟨⟨1, 2⟩, some ⟨0, 1, 10⟩, none⟩, ⟨⟨1, 3⟩, some ⟨0, 1, 11⟩, none⟩,
    ⟨⟨1, 4⟩, some ⟨0, 2, 0⟩, none⟩, ⟨⟨1, 5⟩, none, none⟩]
  origins := #[(⟨0, 1, 10⟩, ⟨1, 2⟩), (⟨0, 1, 11⟩, ⟨1, 3⟩), (⟨0, 2, 0⟩, ⟨1, 4⟩)]

theorem ofSourceMap_splitLineMap : Atlas.ofSourceMap splitLineMap = .ok splitLineAtlas := by
  simp only [Atlas.ofSourceMap, Atlas.mergeSort_rawLe, Atlas.mergeSort_originLe]
  rfl

theorem highlightAt?_splitLineAtlas : highlightAt? splitLineAtlas (.ofText "  hel;") "Demo.tsx"
    ⟨1, 12⟩ = some ⟨1, [⟨1, 10, 12⟩, ⟨2, 0, 1⟩]⟩ := by decide

/-- Cursors, names and texts, of which one lost its atlas and another one never had any. -/
def restless : List Input :=
  [.moveTo ⟨1, 10⟩, .install (some splitLineAtlas) "    lost", .rename "Other.tsx", .dropAtlas,
    .install none "x", .moveTo ⟨1, 12⟩, .install (some splitLineAtlas) "  hel;", .rename "Demo.tsx"]

/-- The latest of these inputs, in another order. -/
def settled : List Input :=
  [.install (some splitLineAtlas) "  hel;", .moveTo ⟨1, 12⟩, .rename "Demo.tsx"]

theorem highlight_of_latest_restless :
    settled.Perm (latest "Main.tsx" restless) ∧
      ((ofName "").takeAll settled).highlight = ((ofName "Main.tsx").takeAll restless).highlight ∧
      ((ofName "Main.tsx").takeAll restless).highlight = some ⟨1, [⟨1, 10, 12⟩, ⟨2, 0, 1⟩]⟩ := by
  have hperm : settled.Perm (latest "Main.tsx" restless) :=
    List.reverse_perm (latest "Main.tsx" restless)
  obtain ⟨-, hhighlight, -, hsame⟩ := @highlight_of_latest _ _ _ "" hperm
  exact ⟨hperm, hsame, hhighlight.trans highlightAt?_splitLineAtlas⟩

end Provenance.Focus

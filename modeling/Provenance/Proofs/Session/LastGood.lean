import Mathlib.Order.Notation
import Provenance.Proofs.Focus.Inputs
import Provenance.Proofs.Session.Coherence

/-!
# The last good output

A session keeps the code of the last outcome without a diagnostic on display. After a failure this
code stays, but its atlas is gone, and nothing but the next outcome brings one back. So a highlight
never mixes the map of one outcome with the code of another.

## Implementation notes

This holds whatever events a session is given to handle, also such as its scheduler never gave.
`Usage` therefore allows more than a course does.
-/

namespace Provenance.Session

open Log

variable {t : Transformer} {settings : Settings} {renderer : Renderer} {text : String}
variable {log : Log} {s s' : Session}

/-- Whatever can be done with a session. Submissions may be refused, and the session may be given
events to handle that do not come from its scheduler. -/
inductive Usage (t : Transformer) (first : Session) : Log → Session → Prop
  | begin : Usage t first [] first
  | next {log s added s'} (usage : Usage t first log s) (step : Step t s added s') :
      Usage t first (log ++ added) s'
  | refused {log : Log} {s : Session} (usage : Usage t first log s) :
      Usage t first (log ++ [.refused]) { s with scheduler := s.scheduler.spent }
  | given {log : Log} {s : Session} (usage : Usage t first log s) (e : Event) :
      Usage t first (log ++ [.arrived e]) (s.handleEvent e).2

/-- A course is a usage in which every event comes from the scheduler. -/
theorem Course.usage {first : Session} (course : Course t first log s) : Usage t first log s := by
  induction course with
  | begin => exact .begin
  | next course step ih => exact ih.next step
  | refused course queued load ih => exact ih.refused

theorem Usage.drawn (usage : Usage t (start settings renderer text) log s) :
    Drawn settings renderer s := by
  induction usage with
  | begin => exact drawn_start settings renderer text
  | next usage step ih => exact ih.step step
  | refused usage ih => exact ih.withScheduler _
  | given usage e ih => exact ih.handleEvent e

theorem Usage.remembers (usage : Usage t (start settings renderer text) log s) :
    Remembers (accepted log) s := by
  induction usage with
  | begin => exact .begin settings renderer text
  | next usage step ih => exact ih.step step
  | refused usage ih =>
      rw [accepted_append, accepted_of_event?_eq_none rfl, List.append_nil]
      exact ih.withScheduler _
  | given usage e ih =>
      rw [accepted_append, accepted_arrived]
      exact ih.handleEvent e

/-- However a session is used, its code and the markup of it are those of the last accepted outcome
without a diagnostic. Its diagnostic is that of the last accepted outcome, and with a diagnostic
there are no atlas and no highlight. Its atlas, the layout beside it and its code come all from the
outcome that was accepted last. -/
theorem last_good_output (usage : Usage t (start settings renderer text) log s) :
    s.view.generatedCode = lastGoodCode (accepted log) ∧
      s.view.outputMarkup =
        Markup.render renderer (lastGoodCode (accepted log)) settings.language ∧
      s.view.status.diagnostic = (accepted log).getLast?.bind Outcome.diagnostic ∧
      (s.view.status.diagnostic.isSome = true → s.focus.atlas = none ∧
        s.focus.highlight = none ∧ s.view.highlight = none ∧ s.view.status.mappedLine = none) ∧
      ∀ atlas, s.focus.atlas = some atlas → ∃ o, (accepted log).getLast? = some o ∧
        o.diagnostic = none ∧ o.map.bind atlasOf? = some atlas ∧
        s.focus.layout = .ofText o.code ∧ s.view.generatedCode = o.code := by
  have hdrawn := usage.drawn
  have h := usage.remembers
  have hcurrent : ∀ atlas, s.focus.atlas = some atlas → ∃ o,
      current? (accepted log) = some o ∧ o.map.bind atlasOf? = some atlas := by
    intro atlas hatlas
    rw [h.atlas] at hatlas
    exact Option.bind_eq_some_iff.mp hatlas
  refine ⟨h.code, ?_, h.diagnostic, ?_, ?_⟩
  · rw [hdrawn.outputMarkup, markup, hdrawn.renderer_eq, hdrawn.language_eq, h.code]
  · intro hfailed
    have hatlas : s.focus.atlas = none := by
      rw [Option.eq_none_iff_forall_ne_some]
      intro atlas hatlas
      obtain ⟨o, ho, -⟩ := hcurrent atlas hatlas
      obtain ⟨hlast, hgood⟩ := current?_eq_some_iff.mp ho
      rw [h.diagnostic, hlast, Option.bind_some, hgood] at hfailed
      cases hfailed
    obtain ⟨hfocus, hview⟩ := h.highlight hatlas
    refine ⟨hatlas, hfocus, hview, ?_⟩
    rw [hdrawn.mappedLine, hview]
    rfl
  · intro atlas hatlas
    obtain ⟨o, ho, hmap⟩ := hcurrent atlas hatlas
    obtain ⟨hlast, hgood⟩ := current?_eq_some_iff.mp ho
    refine ⟨o, hlast, hgood, hmap, h.layout o ho, ?_⟩
    rw [h.code, lastGoodCode, lastGood?_of_current? ho]
    rfl

/-- A transformer that gives code with a map once and fails the second time. -/
def faltering : Transformer :=
  scripted [.generated ⟨"  hel;", some (.object Focus.splitLineMap)⟩, .failure "Unexpected token"]

/-- The first outcome brings code and a map. -/
def mapped : Log :=
  [.submitted false ⟨"hello;", "Demo.tsx", .object [], 1⟩,
    .arrived (.completed ⟨some "  hel;", some (.object Focus.splitLineMap), none, .zero, 1⟩)]

/-- The second outcome is a failure, and other things happen after it. -/
def faltered : Log :=
  mapped ++ [.submitted false ⟨"hello;", "Demo.tsx", .object [], 2⟩,
    .arrived (.completed ⟨none, none, some "Unexpected token", .zero, 2⟩), .renamed "Other.tsx",
    .arrived (.discarded 1)]

theorem atlasOf?_splitLineMap :
    atlasOf? (.object Focus.splitLineMap) = some Focus.splitLineAtlas :=
  congrArg Except.toOption Focus.ofSourceMap_splitLineMap

theorem last_good_output_faltered :
    (∃ s, Usage faltering (start .default Markup.plain "hello;") mapped s ∧
      s.focus.atlas = some Focus.splitLineAtlas ∧ s.focus.layout = .ofText "  hel;" ∧
      s.view.generatedCode = "  hel;" ∧
      s.view.highlight = some ⟨1, [⟨1, 10, 12⟩, ⟨2, 0, 1⟩]⟩) ∧
    ∃ s, Usage faltering (start .default Markup.plain "hello;") faltered s ∧
      s.view.generatedCode = "  hel;" ∧ s.view.status.diagnostic = some "Unexpected token" ∧
      s.focus.atlas = none ∧ s.view.highlight = none := by
  have submitted : Usage faltering (start .default Markup.plain "hello;") _ _ :=
    (Usage.begin.next (.command (.moveCursor ⟨1, 12⟩))).next (.command .compileNow)
  have accepted : Usage faltering (start .default Markup.plain "hello;") mapped _ :=
    submitted.next (.event (.received rfl))
  have failed := (accepted.next (.command .compileNow)).next (.event (.received rfl))
  have renamed := (failed.next (.command (.moveCursor ⟨1, 10⟩))).next
    (.command (.rename "Other.tsx"))
  have usage : Usage faltering (start .default Markup.plain "hello;") faltered _ :=
    renamed.given (.discarded 1)
  constructor
  · obtain ⟨-, -, -, -, hcurrent⟩ := last_good_output accepted
    obtain ⟨o, ho, -, -, hlayout, hcode⟩ := hcurrent _ atlasOf?_splitLineMap
    obtain rfl := Option.some.inj ho
    refine ⟨_, accepted, atlasOf?_splitLineMap, hlayout, hcode, ?_⟩
    change ((atlasOf? (.object Focus.splitLineMap)).bind fun atlas =>
      Focus.highlightAt? atlas (.ofText "  hel;") "Demo.tsx" ⟨1, 12⟩) = _
    rw [atlasOf?_splitLineMap]
    exact Focus.highlightAt?_splitLineAtlas
  · obtain ⟨hcode, -, hdiagnostic, hfailed, -⟩ := last_good_output usage
    obtain ⟨hatlas, -, hhighlight, -⟩ := hfailed rfl
    exact ⟨_, usage, hcode, hdiagnostic, hatlas, hhighlight⟩

end Provenance.Session

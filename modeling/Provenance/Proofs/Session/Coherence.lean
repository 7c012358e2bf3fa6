import Provenance.Proofs.Scheduler.Awaiting
import Provenance.Proofs.Session.Convergence

/-!
# Coherence of the view

The view repeats what its session keeps elsewhere: the text, the name, the markup of both panes, the
highlight and whether a compilation is running. Every command and every event leaves these copies
as they should be, also if it fails.

## Implementation notes

`Drawn` is what commands and events keep whatever they are, so it does not depend on where an event
comes from. That a compilation is shown as running depends on it, since the flag follows the events
of the scheduler.

A breakdown of the worker is noticed in a run when its end is received, but the worker may be dead
before that and refuse a job. `Course` adds these refusals to the steps of a run.
-/

namespace Provenance.Session

open Log

variable {t : Transformer} {settings : Settings} {renderer : Renderer} {text : String}
variable {log : Log} {s s' : Session}

/-- A run whose worker may refuse submissions once loading could break down over a queued job. -/
inductive Course (t : Transformer) (first : Session) : Log → Session → Prop
  | begin : Course t first [] first
  | next {log s added s'} (course : Course t first log s) (step : Step t s added s') :
      Course t first (log ++ added) s'
  | refused {log s n} (course : Course t first log s) (queued : s.scheduler.worker.queue ≠ [])
      (load : t.load n = .breakdown) :
      Course t first (log ++ [.refused]) { s with scheduler := s.scheduler.spent }

/-! ## What is drawn -/

/-- Markup, highlight and mapped line are drawn from the texts and the focus. -/
structure Drawn (settings : Settings) (renderer : Renderer) (s : Session) : Prop where
  renderer_eq : s.renderer = renderer
  language_eq : s.language = settings.language
  sourceName : s.focus.sourceName = s.view.fileName
  sourceMarkup : s.view.sourceMarkup = s.markup s.view.sourceText
  outputMarkup : s.view.outputMarkup = s.markup s.view.generatedCode
  highlight : s.view.highlight = s.focus.highlight
  mappedLine : s.view.status.mappedLine = s.view.highlight.map Highlight.line

namespace Drawn

/-- The scheduler is not drawn. -/
theorem withScheduler (h : Drawn settings renderer s) (scheduler : Scheduler) :
    Drawn settings renderer { s with scheduler := scheduler } :=
  { h with }

theorem handleCommand (h : Drawn settings renderer s) (c : Command) :
    Drawn settings renderer (s.handleCommand c).2 := by
  cases c with
  | edit text => exact { h with sourceMarkup := rfl }
  | moveCursor position => exact { h with highlight := rfl, mappedLine := rfl }
  | rename fileName =>
      exact { h with sourceName := rfl, highlight := rfl, mappedLine := rfl }
  | compileNow =>
      obtain ⟨compiling, hstate⟩ := s.handleCommand_compileNow
      rw [hstate]
      exact { h with }

/-- An outcome changes the focus, so the highlight is drawn anew. -/
theorem apply (h : Drawn settings renderer s) (o : Outcome) :
    Drawn settings renderer (s.apply o) := by
  rw [Session.apply]
  cases o.diagnostic with
  | none => exact { h with outputMarkup := rfl, highlight := rfl, mappedLine := rfl }
  | some diagnostic => exact { h with highlight := rfl, mappedLine := rfl }

theorem handleEvent (h : Drawn settings renderer s) (e : Event) :
    Drawn settings renderer (s.handleEvent e).2 := by
  cases e with
  | completed o => exact h.apply o
  | submitted n => exact { h with }
  | discarded | workerClosed => exact h

theorem step {added : Log} (h : Drawn settings renderer s) (hstep : Step t s added s') :
    Drawn settings renderer s' := by
  cases hstep with
  | command c => exact h.handleCommand c
  | advance milliseconds => exact h.withScheduler _
  | event h' => exact (h.withScheduler _).handleEvent _

end Drawn

theorem drawn_start (settings : Settings) (renderer : Renderer) (text : String) :
    Drawn settings renderer (start settings renderer text) :=
  ⟨rfl, rfl, rfl, rfl, rfl, rfl, rfl⟩

/-! ## What is running -/

/-- The status bar says so exactly while a compilation is running. -/
theorem phase_eq_compiling_iff {status : Status} :
    status.phase = .compiling ↔ status.compiling = true := by
  rw [Status.phase]
  cases status.compiling with
  | true => exact iff_of_true rfl rfl
  | false => cases status.diagnostic <;> exact iff_of_false Phase.noConfusion Bool.noConfusion

/-- The session shows a compilation as running exactly while its outcome is awaited. -/
def ShowsRunning (s : Session) : Prop := s.view.status.compiling = s.scheduler.awaiting

theorem ShowsRunning.handleCommand (h : s.ShowsRunning) (c : Command) :
    (s.handleCommand c).2.ShowsRunning := by
  cases c with
  | edit | moveCursor | rename => exact h
  | compileNow =>
      rw [Session.handleCommand, Scheduler.compileNow_eq]
      cases s.scheduler.worker.alive with
      | true => rfl
      | false => exact h

theorem showsRunning_apply (s : Session) (o : Outcome) :
    (s.apply o).view.status.compiling = false := by
  rw [apply]
  cases o.diagnostic with
  | none => rfl
  | some diagnostic => rfl

/-- The events of the scheduler say when an outcome is awaited and when no longer. -/
theorem ShowsRunning.event (h : s.ShowsRunning) {e : Event} {o : Occurrence}
    {scheduler : Scheduler} (hemits : Scheduler.Emits t s.scheduler e o scheduler) :
    ({ s with scheduler := scheduler }.handleEvent e).2.ShowsRunning := by
  cases hemits with
  | fired hfire =>
      obtain ⟨-, -, -, rfl⟩ := Scheduler.fire?_eq_submitted hfire
      rfl
  | refused hfire =>
      obtain ⟨-, rfl⟩ := Scheduler.fire?_eq_workerClosed hfire
      exact h
  | received hreceive =>
      cases Scheduler.receives_of_receive? hreceive with
      | @completed w j o =>
          rw [ShowsRunning, (handleEvent_frame _ _).1]
          exact showsRunning_apply _ o
      | discarded | closed => exact h

theorem ShowsRunning.step {added : Log} (h : s.ShowsRunning) (hstep : Step t s added s') :
    s'.ShowsRunning := by
  cases hstep with
  | command c => exact h.handleCommand c
  | advance milliseconds => exact h
  | event h' => exact h.event h'

/-! ## Courses -/

/-- The copies of a session agree with each other and with its log. -/
structure Coherent (settings : Settings) (renderer : Renderer) (log : Log) (s : Session) :
    Prop where
  drawn : Drawn settings renderer s
  inStep : InStep settings s
  running : s.ShowsRunning
  tracked : s.scheduler.Tracked log

namespace Coherent

theorem begin (settings : Settings) (renderer : Renderer) (text : String) :
    Coherent settings renderer [] (start settings renderer text) where
  drawn := drawn_start settings renderer text
  inStep := ⟨rfl, rfl, rfl⟩
  running := rfl
  tracked := by
    refine ⟨rfl, nofun, nofun, iff_of_false Bool.noConfusion ?_⟩
    rintro ⟨n, hlatest, -⟩
    cases hlatest

theorem step {added : Log} (h : Coherent settings renderer log s) (hstep : Step t s added s') :
    Coherent settings renderer (log ++ added) s' where
  drawn := h.drawn.step hstep
  inStep := h.inStep.step hstep
  running := h.running.step hstep
  tracked := by
    rcases hstep.scheduler with ⟨rfl, hsame⟩ | ⟨o, rfl, hscheduler⟩
    · rw [hsame, List.append_nil]
      exact h.tracked
    · exact h.tracked.step hscheduler

theorem refused (h : Coherent settings renderer log s) :
    Coherent settings renderer (log ++ [.refused]) { s with scheduler := s.scheduler.spent } where
  drawn := h.drawn.withScheduler _
  inStep := h.inStep.frame rfl rfl rfl
  running := h.running
  tracked := h.tracked.spent

end Coherent

theorem coherent (course : Course t (start settings renderer text) log s) :
    Coherent settings renderer log s := by
  induction course with
  | begin => exact .begin settings renderer text
  | next course step ih => exact ih.step step
  | refused course queued load ih => exact ih.refused

/-- Whatever commands and events a session has handled, and whether or not they failed, its view
shows the text and the name that would be compiled, markup of the text and of the code in the
configured language and the highlight of the focus, and it says that a compilation is running
exactly while the last submitted job has no answer. -/
theorem view_coherence (course : Course t (start settings renderer text) log s) :
    s.view.sourceText = s.scheduler.text ∧
      s.view.fileName = s.scheduler.fileName ∧ s.view.fileName = s.focus.sourceName ∧
      s.view.sourceMarkup = Markup.render renderer s.view.sourceText settings.language ∧
      s.view.outputMarkup = Markup.render renderer s.view.generatedCode settings.language ∧
      s.view.highlight = s.focus.highlight ∧
      s.view.status.mappedLine = s.focus.highlight.map Highlight.line ∧
      (s.view.status.compiling = true ↔ s.scheduler.activity = .inFlight) ∧
      (s.view.status.phase = .compiling ↔ Unanswered log) := by
  obtain ⟨hdrawn, hinStep, hrunning, htracked⟩ := coherent course
  have hmarkup (code : String) : s.markup code = Markup.render renderer code settings.language := by
    rw [markup, hdrawn.renderer_eq, hdrawn.language_eq]
  refine ⟨hinStep.text.symm, hinStep.fileName.symm, hdrawn.sourceName.symm, ?_, ?_,
    hdrawn.highlight, ?_, ?_, ?_⟩
  · rw [hdrawn.sourceMarkup, hmarkup]
  · rw [hdrawn.outputMarkup, hmarkup]
  · rw [hdrawn.mappedLine, hdrawn.highlight]
  · rw [Scheduler.activity_eq_inFlight_iff, hrunning]
  · rw [phase_eq_compiling_iff, hrunning, htracked.awaiting_iff]

/-- A transformer that breaks down whenever it is loaded. -/
def breaking : Transformer where
  load _ := .breakdown
  reply _ c := .generated ⟨c.code, none⟩
  time _ := .zero

/-- A worker that has died over its first job refuses a second one before its end is received and a
third one after it. -/
def abandoned : Log :=
  [.submitted false ⟨"a", "Demo.tsx", .object [], 1⟩, .refused, .arrived .workerClosed, .refused,
    .renamed "Other.tsx"]

theorem view_coherence_abandoned :
    ∃ s, Course breaking (start .default Markup.plain "a") abandoned s ∧
      s.view.sourceText = "a" ∧ s.view.fileName = "Other.tsx" ∧
      s.view.fileName = s.scheduler.fileName ∧
      s.view.sourceMarkup = Markup.render Markup.plain s.view.sourceText "tsx" ∧
      s.scheduler.activity = .inFlight ∧ s.view.status.compiling = true ∧
      Unanswered abandoned := by
  have submitted : Course breaking (start .default Markup.plain "a") _ _ :=
    .next .begin (.command .compileNow)
  have refused := submitted.refused (n := 0) (List.cons_ne_nil _ _) rfl
  have closed := refused.next (.event (.received rfl))
  have failed := closed.next (.command .compileNow)
  have course : Course breaking (start .default Markup.plain "a") abandoned _ :=
    failed.next (.command (.rename "Other.tsx"))
  -- The end of the worker answers nothing, so its first job is shown as running for ever.
  obtain ⟨-, hname, -, hmarkup, -, -, -, hrunning, hphase⟩ := view_coherence course
  exact ⟨_, course, rfl, rfl, hname, hmarkup, rfl, hrunning.mpr rfl, hphase.mp rfl⟩

end Provenance.Session

import Provenance.Proofs.Focus.Inputs
import Provenance.Proofs.Scheduler.Latest
import Provenance.Proofs.Session.Outcomes

/-!
# Convergence of sessions

Edits, renames, submissions and outcomes may follow each other in any order. Whenever a session
comes to rest, it shows the outcome of exactly the text, the name and the options that are shown
and configured by then.

## Implementation notes

`Shows` compares the session with an outcome and `InStep` compares its view with its scheduler. What
atlas an outcome stands for is told by its map alone (`Outcome.Charts`), not by the session.
The first follows from what the session remembers of its outcomes, the second is kept by every step.
That the outcome belongs to the text is not known until the scheduler is idle; it comes from its
run.
-/

namespace Provenance

/-- The outcome has a map that can be read and decodes to the atlas. -/
def Outcome.Charts (o : Outcome) (a : Atlas) : Prop :=
  ∃ payload m, o.map = some payload ∧ payload.sourceMap? = some m ∧ Atlas.ofSourceMap m = .ok a

namespace Session

open Log

variable {t : Transformer} {settings : Settings} {renderer : Renderer} {text : String}
variable {log : Log} {s s' : Session} {o : Outcome}

theorem atlasOf?_eq_some_iff {payload : MapPayload} {a : Atlas} :
    atlasOf? payload = some a ↔
      ∃ m, payload.sourceMap? = some m ∧ Atlas.ofSourceMap m = .ok a := by
  rw [atlasOf?, Option.bind_eq_some_iff]
  refine exists_congr fun m => and_congr_right fun _ => ?_
  cases Atlas.ofSourceMap m with
  | ok a' => exact ⟨fun h => congrArg Except.ok (Option.some.inj h), congrArg Except.toOption⟩
  | error e => exact ⟨nofun, nofun⟩

/-- A session installs the atlas that an outcome stands for. -/
theorem bind_atlasOf?_eq_some_iff {a : Atlas} :
    o.map.bind atlasOf? = some a ↔ o.Charts a := by
  rw [Option.bind_eq_some_iff]
  constructor
  · rintro ⟨payload, hpayload, hatlas⟩
    obtain ⟨m, hm, ha⟩ := atlasOf?_eq_some_iff.mp hatlas
    exact ⟨payload, m, hpayload, hm, ha⟩
  · rintro ⟨payload, m, hpayload, hm, ha⟩
    exact ⟨payload, hpayload, atlasOf?_eq_some_iff.mpr ⟨m, hm, ha⟩⟩

/-- The session shows the outcome: its code and the atlas that it stands for, if any, or its
diagnostic and no highlight. -/
def Shows (s : Session) (o : Outcome) : Prop :=
  match o.diagnostic with
  | none => s.view.generatedCode = o.generated.getD "" ∧ s.view.status.diagnostic = none ∧
      ∀ a, s.focus.atlas = some a ↔ o.Charts a
  | some diagnostic => s.view.status.diagnostic = some diagnostic ∧ s.focus.atlas = none ∧
      s.view.highlight = none

/-- A session that remembers its outcomes shows the last of them. -/
theorem Remembers.shows {outcomes : List Outcome} (h : Remembers outcomes s)
    (ho : outcomes.getLast? = some o) : s.Shows o := by
  have hdiagnostic : s.view.status.diagnostic = o.diagnostic := by
    rw [h.diagnostic, ho, Option.bind_some]
  rw [Shows]
  cases hgood : o.diagnostic with
  | none =>
      have hcurrent : current? outcomes = some o := current?_eq_some_iff.mpr ⟨ho, hgood⟩
      refine ⟨?_, hdiagnostic.trans hgood, ?_⟩
      · rw [h.code, lastGoodCode, lastGood?_of_current? hcurrent]
        rfl
      · intro a
        rw [h.atlas, hcurrent, Option.bind_some]
        exact bind_atlasOf?_eq_some_iff
  | some diagnostic =>
      have hfailed : ¬ o.succeeded = true := by
        rw [Outcome.succeeded_iff, hgood]
        exact Option.some_ne_none diagnostic
      have hatlas : s.focus.atlas = none := by
        rw [h.atlas, current?_eq_none ho hfailed]
        rfl
      exact ⟨hdiagnostic.trans hgood, hatlas, (h.highlight hatlas).2⟩

/-- A session shows the outcome that was accepted last. -/
theorem shows_latest (run : Run t (start settings renderer text) log s)
    (ho : (accepted log).getLast? = some o) : s.Shows o :=
  run.remembers.shows ho

/-- What would be compiled is the text and the name that are shown, with the configured options. -/
structure InStep (settings : Settings) (s : Session) : Prop where
  text : s.scheduler.text = s.view.sourceText
  fileName : s.scheduler.fileName = s.view.fileName
  options : s.scheduler.options = settings.options

namespace InStep

/-- Only what would be compiled and what is shown of it matter. -/
theorem frame (h : InStep settings s)
    (hrequest : s'.scheduler.job.request = s.scheduler.job.request)
    (htext : s'.view.sourceText = s.view.sourceText)
    (hname : s'.view.fileName = s.view.fileName) : InStep settings s' where
  text := (congrArg Request.code hrequest).trans (h.text.trans htext.symm)
  fileName := (congrArg Request.fileName hrequest).trans (h.fileName.trans hname.symm)
  options := (congrArg Request.options hrequest).trans h.options

theorem handleCommand (h : InStep settings s) (c : Command) :
    InStep settings (s.handleCommand c).2 := by
  cases c with
  | edit text => exact ⟨rfl, h.fileName, h.options⟩
  | moveCursor position => exact h.frame rfl rfl rfl
  | rename fileName => exact ⟨h.text, rfl, h.options⟩
  | compileNow =>
      obtain ⟨compiling, hstate⟩ := s.handleCommand_compileNow
      rw [hstate]
      exact h.frame s.scheduler.request_compileNow rfl rfl

theorem step {added : Log} (h : InStep settings s) (hstep : Step t s added s') :
    InStep settings s' := by
  cases hstep with
  | command c => exact h.handleCommand c
  | advance milliseconds => exact h.frame rfl rfl rfl
  | @event e o scheduler hemits =>
      obtain ⟨hscheduler, htext, hname⟩ := handleEvent_frame { s with scheduler := scheduler } e
      refine h.frame ?_ htext hname
      rw [hscheduler, Scheduler.request_step (.event hemits) hemits.not_arms]

end InStep

theorem inStep (run : Run t (start settings renderer text) log s) : InStep settings s := by
  induction run with
  | begin => exact ⟨rfl, rfl, rfl⟩
  | next run step ih => exact ih.step step

/-- Whenever a session is idle and every submission was taken, the outcome that was accepted last
answers the last submitted job, that job carries what the view shows and the configured options,
and the session shows this outcome. -/
theorem convergence (run : Run t (start settings renderer text) log s) (hlog : .refused ∉ log)
    (hidle : s.scheduler.activity = .idle) :
    ∃ j o, (jobs log).getLast? = some j ∧ (accepted log).getLast? = some o ∧
      Worker.Answers t j o ∧ o.sequence = j.sequence ∧
      j.request = ⟨s.view.sourceText, s.view.fileName, settings.options⟩ ∧ s.Shows o := by
  have hrun := run.scheduler
  have htaken : .refused ∉ Occurrence.edited text :: log := by simpa using hlog
  obtain ⟨hawaiting, hdeadline⟩ := Scheduler.activity_eq_idle_iff.mp hidle
  obtain ⟨hinputs, -⟩ | ⟨j, hj, hrequest⟩ := Scheduler.latest_current hrun htaken hdeadline
  · -- The first text was put in, so something was submitted since.
    exact absurd trivial (hinputs (.edited text) List.mem_cons_self)
  · obtain ⟨o, ho, hanswers⟩ := Scheduler.latest_answered hrun htaken hawaiting hj
    have h := inStep run
    refine ⟨j, o, hj, ho, hanswers, hanswers.sequence_eq, ?_, shows_latest run ho⟩
    rw [hrequest, ← h.text, ← h.fileName, ← h.options]
    rfl

/-- A transformer that gives code with a map for the second job only. -/
def chartsSecond : Transformer :=
  scripted [.generated ⟨"hel", none⟩, .generated ⟨"  hel;", some (.object Focus.splitLineMap)⟩]

/-- An edit follows a submission, and its outcome arrives only when the next job was submitted. -/
def overtaken : Log :=
  [.submitted false ⟨"hel", "Demo.tsx", .object [], 1⟩, .edited "hello;", .passed 500,
    .submitted true ⟨"hello;", "Demo.tsx", .object [], 2⟩, .arrived (.discarded 1),
    .arrived (.completed ⟨some "  hel;", some (.object Focus.splitLineMap), none, .zero, 2⟩)]

theorem convergence_overtaken :
    ∃ s, Run chartsSecond (start .default Markup.plain "hel") overtaken s ∧
      .refused ∉ overtaken ∧ s.scheduler.activity = .idle ∧
      s.focus.atlas = some Focus.splitLineAtlas ∧
      ∃ j o, (jobs overtaken).getLast? = some j ∧ (accepted overtaken).getLast? = some o ∧
        Worker.Answers chartsSecond j o ∧ o.sequence = j.sequence ∧
        j.request = ⟨"hello;", "Demo.tsx", .object []⟩ ∧ s.Shows o := by
  have compiled : Run chartsSecond (start .default Markup.plain "hel") _ _ :=
    .next .begin (.command .compileNow)
  have waited := (compiled.next (.command (.edit "hello;"))).next (.advance 500)
  have discarded := (waited.next (.event (.fired rfl))).next (.event (.received rfl))
  have run : ∃ s, Run chartsSecond (start .default Markup.plain "hel") overtaken s ∧
      s.scheduler.activity = .idle :=
    ⟨_, discarded.next (.event (.received rfl)), rfl⟩
  -- From here on the session is any that the run leads to and is not computed any more.
  obtain ⟨s, run, hidle⟩ := run
  have hlog : .refused ∉ overtaken := by simp [overtaken]
  obtain ⟨j, o, hj, ho, hanswers, hsequence, -, hshows⟩ := convergence run hlog hidle
  obtain rfl := Option.some.inj hj
  obtain rfl := Option.some.inj ho
  refine ⟨s, run, hlog, hidle, ?_, _, _, rfl, rfl, hanswers, hsequence, rfl, hshows⟩
  exact (hshows.2.2 _).mpr ⟨_, _, rfl, rfl, Focus.ofSourceMap_splitLineMap⟩

end Session

end Provenance

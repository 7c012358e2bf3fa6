import Provenance.Proofs.Session.Run

/-!
# What is left of outcomes

Of the outcomes that a session has accepted two still matter: the last one without a diagnostic,
whose code is kept, and the last one of all, which alone can have left a diagnostic or an atlas.
Only a further outcome changes what is left of them.

## Implementation notes

`Remembers` compares a session with a list of outcomes, so that it does not matter where these come
from. Every command keeps it, and so does every event up to the outcome that the event may accept.
-/

namespace Provenance

variable {outcomes : List Outcome} {o : Outcome}

/-- The code that an outcome shows. -/
def Outcome.code (o : Outcome) : String := o.generated.getD ""

theorem Outcome.succeeded_iff : o.succeeded = true ↔ o.diagnostic = none :=
  Option.isNone_iff_eq_none

/-- The last outcome without a diagnostic. -/
def lastGood? (outcomes : List Outcome) : Option Outcome :=
  (outcomes.filter Outcome.succeeded).getLast?

/-- The code of the last outcome without a diagnostic, empty as long as there is none. -/
def lastGoodCode (outcomes : List Outcome) : String := (lastGood? outcomes).elim "" Outcome.code

/-- The outcome whose map is in use: the last one, unless it has a diagnostic. -/
def current? (outcomes : List Outcome) : Option Outcome :=
  outcomes.getLast?.filter Outcome.succeeded

theorem lastGood?_concat (outcomes : List Outcome) (o : Outcome) :
    lastGood? (outcomes ++ [o]) = if o.succeeded then some o else lastGood? outcomes := by
  rw [lastGood?, List.filter_append]
  by_cases h : o.succeeded = true
  · rw [List.filter_cons_of_pos h, if_pos h]
    exact List.getLast?_concat
  · rw [List.filter_cons_of_neg h, if_neg h, List.filter_nil, List.append_nil]
    rfl

theorem current?_eq_some_iff :
    current? outcomes = some o ↔ outcomes.getLast? = some o ∧ o.diagnostic = none := by
  rw [current?, Option.filter_eq_some_iff, Outcome.succeeded_iff]

/-- After a failure no map is in use. -/
theorem current?_eq_none (ho : outcomes.getLast? = some o) (hfailed : ¬ o.succeeded = true) :
    current? outcomes = none := by
  rw [current?, ho]
  exact if_neg hfailed

/-- The outcome whose map is in use is the one whose code is kept. -/
theorem lastGood?_of_current? (h : current? outcomes = some o) : lastGood? outcomes = some o := by
  obtain ⟨hlast, hgood⟩ := current?_eq_some_iff.mp h
  obtain ⟨earlier, rfl⟩ := List.getLast?_eq_some_iff.mp hlast
  rw [lastGood?_concat, if_pos (Outcome.succeeded_iff.mpr hgood)]

namespace Session

open Log

variable {t : Transformer} {settings : Settings} {renderer : Renderer} {text : String}
variable {log : Log} {s s' : Session}

/-- There is no highlight without an atlas. -/
theorem highlight_refresh_of_atlas_eq_none {f : Focus} (h : f.atlas = none) :
    f.refresh.highlight = none := by
  rw [Focus.refresh, h]
  rfl

theorem accepted_logged (s : Session) (c : Command) : accepted (s.logged c) = [] := by
  cases c with
  | edit | moveCursor | rename => rfl
  | compileNow =>
      rcases s.logged_compileNow with ⟨-, hlogged⟩ | ⟨-, hlogged⟩
      · rw [hlogged]
        rfl
      · rw [hlogged]
        rfl

/-- The session shows what is left of the outcomes that it has accepted. -/
structure Remembers (outcomes : List Outcome) (s : Session) : Prop where
  code : s.view.generatedCode = lastGoodCode outcomes
  diagnostic : s.view.status.diagnostic = outcomes.getLast?.bind Outcome.diagnostic
  atlas : s.focus.atlas = (current? outcomes).bind fun o => o.map.bind atlasOf?
  layout : ∀ o, current? outcomes = some o → s.focus.layout = .ofText o.code
  highlight : s.focus.atlas = none → s.focus.highlight = none ∧ s.view.highlight = none

namespace Remembers

theorem begin (settings : Settings) (renderer : Renderer) (text : String) :
    Remembers [] (start settings renderer text) :=
  ⟨rfl, rfl, rfl, nofun, fun _ => ⟨rfl, rfl⟩⟩

/-- Only the code, the diagnostic, the atlas with its layout and a highlight without one matter. -/
theorem frame (h : Remembers outcomes s)
    (hcode : s'.view.generatedCode = s.view.generatedCode)
    (hdiagnostic : s'.view.status.diagnostic = s.view.status.diagnostic)
    (hatlas : s'.focus.atlas = s.focus.atlas) (hlayout : s'.focus.layout = s.focus.layout)
    (hhighlight : s.focus.atlas = none → s.focus.highlight = none ∧ s.view.highlight = none →
      s'.focus.highlight = none ∧ s'.view.highlight = none) :
    Remembers outcomes s' where
  code := hcode.trans h.code
  diagnostic := hdiagnostic.trans h.diagnostic
  atlas := hatlas.trans h.atlas
  layout o ho := hlayout.trans (h.layout o ho)
  highlight := by
    rw [hatlas]
    exact fun hnone => hhighlight hnone (h.highlight hnone)

/-- No command replaces what is left of an outcome. -/
theorem handleCommand (h : Remembers outcomes s) (c : Command) :
    Remembers outcomes (s.handleCommand c).2 := by
  cases c with
  | edit text => exact h.frame rfl rfl rfl rfl fun _ hhighlight => hhighlight
  | moveCursor position =>
      refine h.frame rfl rfl rfl rfl fun hatlas _ => ?_
      exact ⟨highlight_refresh_of_atlas_eq_none hatlas, highlight_refresh_of_atlas_eq_none hatlas⟩
  | rename fileName =>
      refine h.frame rfl rfl rfl rfl fun hatlas _ => ?_
      exact ⟨highlight_refresh_of_atlas_eq_none hatlas, highlight_refresh_of_atlas_eq_none hatlas⟩
  | compileNow =>
      obtain ⟨compiling, hstate⟩ := s.handleCommand_compileNow
      rw [hstate]
      exact h.frame rfl rfl rfl rfl fun _ hhighlight => hhighlight

/-- A failure keeps the code and drops the atlas; a success replaces both at once. -/
theorem apply (h : Remembers outcomes s) (o : Outcome) :
    Remembers (outcomes ++ [o]) (s.apply o) := by
  have hdiagnostic : (outcomes ++ [o]).getLast?.bind Outcome.diagnostic = o.diagnostic := by
    rw [List.getLast?_concat, Option.bind_some]
  rw [Session.apply]
  cases ho : o.diagnostic with
  | some diagnostic =>
      have hfailed : ¬ o.succeeded = true := by
        rw [Outcome.succeeded_iff, ho]
        exact Option.some_ne_none diagnostic
      have hcurrent : current? (outcomes ++ [o]) = none :=
        current?_eq_none List.getLast?_concat hfailed
      constructor
      · rw [lastGoodCode, lastGood?_concat, if_neg hfailed]
        exact h.code
      · rw [hdiagnostic, ho]
        rfl
      · rw [hcurrent]
        rfl
      · intro o' ho'
        rw [hcurrent] at ho'
        cases ho'
      · exact fun _ => ⟨rfl, rfl⟩
  | none =>
      have hcurrent : current? (outcomes ++ [o]) = some o :=
        current?_eq_some_iff.mpr ⟨List.getLast?_concat, ho⟩
      constructor
      · rw [lastGoodCode, lastGood?_of_current? hcurrent]
        rfl
      · rw [hdiagnostic, ho]
        rfl
      · rw [hcurrent]
        rfl
      · rw [hcurrent]
        rintro o' ⟨⟩
        rfl
      · intro hatlas
        exact ⟨highlight_refresh_of_atlas_eq_none hatlas,
          highlight_refresh_of_atlas_eq_none hatlas⟩

theorem handleEvent (h : Remembers outcomes s) (e : Event) :
    Remembers (outcomes ++ e.accepted?.toList) (s.handleEvent e).2 := by
  cases e with
  | completed o => exact h.apply o
  | submitted n =>
      change Remembers (outcomes ++ []) _
      rw [List.append_nil]
      exact h.frame rfl rfl rfl rfl fun _ hhighlight => hhighlight
  | discarded | workerClosed =>
      change Remembers (outcomes ++ []) s
      rw [List.append_nil]
      exact h

theorem withScheduler (h : Remembers outcomes s) (scheduler : Scheduler) :
    Remembers outcomes { s with scheduler := scheduler } :=
  h.frame rfl rfl rfl rfl fun _ hhighlight => hhighlight

theorem step {added : Log} (h : Remembers (accepted log) s) (hstep : Step t s added s') :
    Remembers (accepted (log ++ added)) s' := by
  rw [accepted_append]
  cases hstep with
  | command c =>
      rw [accepted_logged, List.append_nil]
      exact h.handleCommand c
  | advance milliseconds =>
      rw [accepted_of_event?_eq_none rfl, List.append_nil]
      exact h.withScheduler _
  | event hemits =>
      rw [hemits.accepted_eq]
      exact (h.withScheduler _).handleEvent _

end Remembers

theorem Run.remembers (run : Run t (start settings renderer text) log s) :
    Remembers (accepted log) s := by
  induction run with
  | begin => exact .begin settings renderer text
  | next run step ih => exact ih.step step

end Session

end Provenance

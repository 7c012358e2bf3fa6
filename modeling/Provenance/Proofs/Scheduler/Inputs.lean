import Provenance.Proofs.Scheduler.Latest

/-!
# Inputs of the jobs

Text, file name and options are put in one at a time, in any order with submissions and outcomes. A
job carries each of the three as it was put in last before the job was submitted. Outside of a quiet
period the last job carries what the scheduler holds, unless that was never changed at all.

## Implementation notes

In `Usage` outcomes may also be presented to the scheduler from outside, whatever their numbers.
This changes nothing but whether an outcome is awaited, and neither jobs nor the timer depend on
that.
-/

namespace Provenance

namespace Occurrence

/-- The text that is put in. -/
def text? : Occurrence → Option String
  | .edited text => some text
  | _ => none

/-- The file name that is put in. -/
def fileName? : Occurrence → Option String
  | .renamed fileName => some fileName
  | _ => none

/-- The options that are put in. -/
def options? : Occurrence → Option Json.Value
  | .configured options => some options
  | _ => none

end Occurrence

namespace Log

/-- What was put in last of its kind, or `first` as long as nothing was. -/
def lastOr {α : Type} (first : α) (given : Occurrence → Option α) (log : Log) : α :=
  (log.filterMap given).getLast?.getD first

/-- What the inputs ask to be compiled. -/
def request (settings : Settings) (log : Log) : Request :=
  ⟨lastOr "" Occurrence.text? log, lastOr settings.fileName Occurrence.fileName? log,
    lastOr settings.options Occurrence.options? log⟩

theorem lastOr_concat {α : Type} (first : α) (given : Occurrence → Option α) (log : Log)
    (o : Occurrence) :
    lastOr first given (log ++ [o]) = (given o).getD (lastOr first given log) := by
  rw [lastOr, List.filterMap_append, List.getLast?_append, lastOr]
  cases h : given o <;> simp [h]

/-- Each input replaces its own part of what is asked for. -/
theorem request_concat (settings : Settings) (log : Log) (o : Occurrence) :
    request settings (log ++ [o]) =
      ⟨o.text?.getD (request settings log).code, o.fileName?.getD (request settings log).fileName,
        o.options?.getD (request settings log).options⟩ := by
  simp only [request, lastOr_concat]

end Log

namespace Scheduler

open Log

/-- Whatever can be done to a scheduler, logged but for the outcomes that are presented to it. -/
inductive Usage (t : Transformer) (settings : Settings) : Log → Scheduler → Prop
  | begin : Usage t settings [] (ofSettings settings)
  | next {log s o s'} (usage : Usage t settings log s) (step : Step t s o s') :
      Usage t settings (log ++ [o]) s'
  | accept {log s} (usage : Usage t settings log s) (o : Outcome) :
      Usage t settings log (s.accept o).2

variable {t : Transformer} {settings : Settings} {log : Log} {s s' : Scheduler} {o : Occurrence}

/-- What would be submitted after a step is what the inputs ask for. -/
theorem request_of_step (hstep : Step t s o s') (h : s.job.request = request settings log) :
    s'.job.request = request settings (log ++ [o]) := by
  rw [request_concat, ← h]
  have hdoes := hstep.does
  cases o with
  | edited | renamed | configured =>
      subst hdoes
      rfl
  | passed | submitted | refused | arrived => exact request_step hstep not_false

/-- The scheduler holds the inputs, each job was submitted with those before it, and the last job is
the latest one. -/
structure Carries (settings : Settings) (log : Log) (s : Scheduler) : Prop where
  held : s.job.request = request settings log
  carried : ∀ before byTimer j after, log = before ++ .submitted byTimer j :: after →
    j.request = request settings before
  latest : s.latest = ((jobs log).map Job.sequence).getLast?
  upToDate : .refused ∉ log → ¬ s.deadline.isSome = true → UpToDate settings log s

namespace Carries

theorem begin (settings : Settings) : Carries settings [] (ofSettings settings) where
  held := rfl
  carried := by simp
  latest := rfl
  upToDate _ _ := Or.inl ⟨fun _ ho => absurd ho List.not_mem_nil, rfl⟩

theorem step (h : Carries settings log s) (hstep : Step t s o s') :
    Carries settings (log ++ [o]) s' where
  held := request_of_step hstep h.held
  carried := by
    intro before byTimer j after hlog
    rcases concat_eq_append_cons hlog with ⟨rfl, hlast, -⟩ | ⟨rest, -, hrest⟩
    · rw [job_of_step hstep (congrArg Occurrence.job? hlast.symm), h.held]
    · exact h.carried before byTimer j rest hrest
  latest := by
    have hdoes := hstep.does
    cases o with
    | edited | renamed | configured | passed =>
        subst hdoes
        exact h.latest.trans (by simp [Occurrence.job?])
    | submitted byTimer j =>
        obtain ⟨-, rfl, -, rfl⟩ := hdoes
        rw [jobs_submitted, List.map_append, List.map_singleton, List.getLast?_concat]
        rfl
    | refused =>
        obtain ⟨-, rfl⟩ := hdoes
        exact h.latest.trans (by simp [Occurrence.job?])
    | arrived e =>
        rw [jobs_arrived]
        cases hdoes <;> exact h.latest
  upToDate := by
    intro hlog hdeadline
    rw [List.mem_append, List.mem_singleton, not_or] at hlog
    exact upToDate_step hstep (Ne.symm hlog.2) hdeadline (h.upToDate hlog.1)

/-- An outcome presented from outside is not seen in the jobs. -/
theorem accept (h : Carries settings log s) (o : Outcome) :
    Carries settings log (s.accept o).2 := by
  rw [Scheduler.accept]
  split
  · exact ⟨h.held, h.carried, h.latest, h.upToDate⟩
  · exact h

end Carries

end Scheduler

end Provenance

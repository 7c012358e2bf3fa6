import Provenance.Proofs.Scheduler.Accounting

/-!
# The latest job

Outside of a quiet period the job that was submitted last is the one that would be submitted now.
Once no outcome is awaited, the outcome that was accepted last is an answer to that job.
-/

namespace Provenance.Scheduler

open Log

variable {t : Transformer} {settings : Settings} {log : Log} {s s' : Scheduler} {o : Occurrence}

/-- Only inputs change what would be submitted. -/
theorem request_step (hstep : Step t s o s') (ho : ¬ o.Arms) :
    s'.job.request = s.job.request := by
  have hdoes := hstep.does
  cases o with
  | edited | renamed | configured => exact absurd trivial ho
  | passed =>
      subst hdoes
      rfl
  | submitted byTimer j =>
      obtain ⟨-, -, -, rfl⟩ := hdoes
      rfl
  | refused =>
      obtain ⟨-, rfl⟩ := hdoes
      rfl
  | arrived e => cases hdoes <;> rfl

theorem job_of_step (hstep : Step t s o s') {j : Job} (hj : o.job? = some j) : j = s.job := by
  have hdoes := hstep.does
  cases o with
  | submitted byTimer j' =>
      obtain rfl : j' = j := Option.some.inj hj
      exact hdoes.2.1
  | _ => cases hj

/-- Nothing was ever put in, or the last submitted job carries what would be submitted now. -/
def UpToDate (settings : Settings) (log : Log) (s : Scheduler) : Prop :=
  (∀ o ∈ log, ¬ o.Arms) ∧ s.job.request = (ofSettings settings).job.request ∨
    ∃ j, (jobs log).getLast? = some j ∧ j.request = s.job.request

/-- The last job is up to date again when a quiet period is over, and stays so until the next. -/
theorem upToDate_step (hstep : Step t s o s') (ho : o ≠ .refused)
    (hdeadline : ¬ s'.deadline.isSome = true)
    (h : ¬ s.deadline.isSome = true → UpToDate settings log s) :
    UpToDate settings (log ++ [o]) s' := by
  rw [deadline_step hstep ho, not_or, not_and] at hdeadline
  obtain ⟨hinput, hprevious⟩ := hdeadline
  have hrequest := request_step hstep hinput
  cases hjob : o.job? with
  | some j =>
      refine Or.inr ⟨j, by simp [hjob], ?_⟩
      rw [job_of_step hstep hjob, hrequest]
  | none =>
      rcases h (hprevious hjob) with ⟨hinputs, hfirst⟩ | ⟨j, hj, hcurrent⟩
      · refine Or.inl ⟨?_, hrequest.trans hfirst⟩
        intro o' ho'
        rw [List.mem_append, List.mem_singleton] at ho'
        exact ho'.elim (hinputs o') fun heq => heq ▸ hinput
      · exact Or.inr ⟨j, by simpa [hjob] using hj, hcurrent.trans hrequest.symm⟩

/-- Outside of a quiet period either nothing was ever put in, or the last submitted job carries
what would be submitted now. -/
theorem latest_current (run : Run t (ofSettings settings) log s) (hlog : .refused ∉ log)
    (hdeadline : ¬ s.deadline.isSome = true) :
    (∀ o ∈ log, ¬ o.Arms) ∧ s.job.request = (ofSettings settings).job.request ∨
      ∃ j, (jobs log).getLast? = some j ∧ j.request = s.job.request := by
  induction run with
  | begin => exact Or.inl ⟨fun _ ho => absurd ho List.not_mem_nil, rfl⟩
  | next run step ih =>
      rw [List.mem_append, List.mem_singleton, not_or] at hlog
      exact upToDate_step step (Ne.symm hlog.2) hdeadline (ih hlog.1)

/-- Once no outcome is awaited, the last accepted outcome answers the last submitted job. -/
theorem latest_answered (run : Run t (ofSettings settings) log s) (hlog : .refused ∉ log)
    (hawaiting : ¬ s.awaiting = true) {j : Job} (hj : (jobs log).getLast? = some j) :
    ∃ o, (accepted log).getLast? = some o ∧ Worker.Answers t j o := by
  induction run generalizing j with
  | begin => cases hj
  | @next log s o s' run step ih =>
      rw [List.mem_append, List.mem_singleton, not_or] at hlog
      have hdoes := step.does
      rw [accepted_append]
      cases o with
      | edited | renamed | configured | passed =>
          subst hdoes
          rw [accepted_of_event?_eq_none rfl, List.append_nil]
          exact ih hlog.1 hawaiting (by simpa [Occurrence.job?] using hj)
      | submitted byTimer j' =>
          obtain ⟨-, -, -, rfl⟩ := hdoes
          exact absurd rfl hawaiting
      | refused => exact absurd rfl hlog.2
      | arrived e =>
          rw [jobs_arrived] at hj
          cases hdoes with
          | @completed w j' o hqueue hanswers halive hanswered hlatest =>
              -- The number of the oldest job is the latest one, so it is the last job.
              have h := accounted run hlog.1
              obtain ⟨-, hdrop, -, hlength⟩ := h.oldest hqueue
              have hlast := congrArg List.getLast? hdrop
              rw [(h.latest_eq_iff hqueue).mp hlatest, List.getLast?_drop, if_neg (by omega), hj,
                List.getLast?_singleton, Option.some_inj] at hlast
              exact ⟨o, by simp [Event.accepted?], hlast ▸ hanswers⟩
          | discarded | closed =>
              simpa [Event.accepted?] using ih hlog.1 hawaiting hj

end Provenance.Scheduler

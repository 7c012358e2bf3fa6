import Provenance.Proofs.Scheduler.Accounting

/-!
# The quiet period

A new text, file name or option starts the quiet period anew. The timer submits a job when the last
such call is a whole quiet period ago and nothing was submitted since, so a burst of calls leads to
one job of the timer, and an explicit compilation leaves none to it.

## Implementation notes

A log tells the time by the durations of its steps, which is the time on the clock of a scheduler
that was just started. `Step.ticks` says what each step does to the timer; all that is proved of
runs here is proved from it. Nothing but the last part of a burst depends on whether the worker is
still alive: a refused submission stops the timer like one that was taken.
-/

namespace Provenance

namespace Occurrence

/-- The time that passes in the step. -/
def duration : Occurrence → Nat
  | .passed milliseconds => milliseconds
  | _ => 0

/-- The job that the timer submitted. -/
def timed? : Occurrence → Option Job
  | .submitted true j => some j
  | _ => none

/-- The job that was submitted without waiting for the timer. -/
def requested? : Occurrence → Option Job
  | .submitted false j => some j
  | _ => none

/-- The step is an event that the scheduler hands out when it is asked for the next one. -/
def Polled : Occurrence → Prop
  | .submitted true _ | .arrived _ => True
  | _ => False

instance : DecidablePred Arms
  | .edited _ | .renamed _ | .configured _ => .isTrue trivial
  | .passed _ | .submitted _ _ | .refused | .arrived _ => .isFalse not_false

variable {o : Occurrence}

theorem timed?_eq_none (h : o.job? = none) : o.timed? = none := by
  cases o with
  | submitted => cases h
  | _ => rfl

theorem Polled.not_arms (h : o.Polled) : ¬ o.Arms := by
  cases o with
  | submitted | arrived => exact not_false
  | _ => exact h.elim

theorem Polled.duration_eq (h : o.Polled) : o.duration = 0 := by
  cases o with
  | passed => exact h.elim
  | _ => rfl

end Occurrence

namespace Log

/-- The time that passes in the steps. -/
def elapsed : Log → Nat
  | [] => 0
  | o :: log => o.duration + elapsed log

/-- The jobs that the timer submitted. -/
def timed (log : Log) : List Job := log.filterMap Occurrence.timed?

/-- The jobs that were submitted without waiting for the timer. -/
def requested (log : Log) : List Job := log.filterMap Occurrence.requested?

/-- The steps that start the quiet period. -/
def calls (log : Log) : Log := log.filter Occurrence.Arms

/-- The quiet period was last started at the given time, and no job was submitted since. -/
def ArmedAt (log : Log) (called : Nat) : Prop :=
  ∃ before o after, log = before ++ o :: after ∧ o.Arms ∧ calls after = [] ∧ jobs after = [] ∧
    elapsed before = called

variable {log : Log} {o : Occurrence} {called : Nat}

@[simp] theorem elapsed_append (log log' : Log) :
    elapsed (log ++ log') = elapsed log + elapsed log' := by
  induction log with
  | nil => simp [elapsed]
  | cons o log ih => simp [elapsed, ih, Nat.add_assoc]

@[simp] theorem timed_append (log log' : Log) : timed (log ++ log') = timed log ++ timed log' :=
  List.filterMap_append

@[simp] theorem requested_append (log log' : Log) :
    requested (log ++ log') = requested log ++ requested log' :=
  List.filterMap_append

@[simp] theorem calls_append (log log' : Log) : calls (log ++ log') = calls log ++ calls log' := by
  simp [calls]

theorem timed_singleton (h : o.job? = none) : timed [o] = [] := by
  simp [timed, Occurrence.timed?_eq_none h]

theorem calls_singleton (h : o.Arms) : calls [o] = [o] := by
  simp [calls, h]

theorem armedAt_concat_of_arms (log : Log) (h : o.Arms) : ArmedAt (log ++ [o]) (elapsed log) :=
  ⟨log, o, [], rfl, h, rfl, rfl, rfl⟩

theorem ArmedAt.concat (h : ArmedAt log called) (harms : ¬ o.Arms) (hjob : o.job? = none) :
    ArmedAt (log ++ [o]) called := by
  obtain ⟨before, o', after, rfl, hstarted, hcalls, hjobs, htime⟩ := h
  refine ⟨before, o', after ++ [o], by simp, hstarted, ?_, by simp [hjobs, hjob], htime⟩
  rw [calls_append, hcalls]
  simp [calls, harms]

/-- Calls that start the quiet period, each less than `debounce` after the one before, without an
explicit compilation between or after them. The number is the time since the last call. -/
inductive Burst (debounce : Nat) : Log → Nat → Prop
  | first {o : Occurrence} (arms : o.Arms) : Burst debounce [o] 0
  | again {log : Log} {since : Nat} {o : Occurrence} (burst : Burst debounce log since)
      (arms : o.Arms) (soon : since < debounce) : Burst debounce (log ++ [o]) 0
  | quiet {log : Log} {since : Nat} {o : Occurrence} (burst : Burst debounce log since)
      (unarmed : ¬ o.Arms) (unrequested : o.requested? = none) (taken : o ≠ .refused) :
      Burst debounce (log ++ [o]) (since + o.duration)

/-- Asking for events neither continues a burst nor takes time. -/
theorem Burst.polled {debounce since : Nat} {log polled : Log} (burst : Burst debounce log since)
    (h : ∀ o ∈ polled, o.Polled) : Burst debounce (log ++ polled) since := by
  induction polled generalizing log with
  | nil => rwa [List.append_nil]
  | cons o rest ih =>
      have hfirst : o.Polled := h o List.mem_cons_self
      have hburst : Burst debounce (log ++ [o]) (since + o.duration) := by
        refine burst.quiet hfirst.not_arms ?_ ?_
        · cases o with
          | submitted byTimer =>
              cases byTimer with
              | true => rfl
              | false => exact hfirst.elim
          | _ => rfl
        · rintro rfl
          exact hfirst
      rw [hfirst.duration_eq, Nat.add_zero] at hburst
      rw [List.append_cons]
      exact ih hburst fun o' ho' => h o' (List.mem_cons_of_mem _ ho')

end Log

namespace Scheduler

open Log

/-- What a step does to the timer. -/
inductive Ticks (s : Scheduler) : Occurrence → Scheduler → Prop
  | started {o s'} (arms : o.Arms) (quiet : o.job? = none)
      (deadline : s'.deadline = some (s.now + s.debounce)) : Ticks s o s'
  | fired {j s' d} (pending : s.deadline = some d) (due : d ≤ s.now)
      (deadline : s'.deadline = none) : Ticks s (.submitted true j) s'
  | cancelled {j s'} (deadline : s'.deadline = none) : Ticks s (.submitted false j) s'
  | refused {s'} (deadline : s'.deadline = none) : Ticks s .refused s'
  | kept {o s'} (unarmed : ¬ o.Arms) (quiet : o.job? = none)
      (deadline : s'.deadline = s.deadline) : Ticks s o s'

variable {t : Transformer} {settings : Settings} {start s s' : Scheduler} {log : Log}
  {o : Occurrence}

theorem isDue_iff : s.isDue = true ↔ ∃ d, s.deadline = some d ∧ d ≤ s.now := by
  simp [isDue, Option.any_eq_true]

theorem Step.ticks (h : Step t s o s') : Ticks s o s' := by
  have hdoes := h.does
  cases o with
  | edited | renamed | configured =>
      subst hdoes
      exact .started trivial rfl rfl
  | passed =>
      subst hdoes
      exact .kept not_false rfl rfl
  | submitted byTimer j =>
      obtain ⟨-, -, hdue, rfl⟩ := hdoes
      cases byTimer with
      | true =>
          obtain ⟨d, hd, hle⟩ := isDue_iff.mp (hdue rfl)
          exact .fired hd hle rfl
      | false => exact .cancelled rfl
  | refused =>
      obtain ⟨-, rfl⟩ := hdoes
      exact .refused rfl
  | arrived e => exact .kept not_false rfl (by cases hdoes <;> rfl)

/-- No step changes the length of the quiet period, and the clock goes as the log says. -/
theorem Step.clock (h : Step t s o s') :
    s'.debounce = s.debounce ∧ s'.now = s.now + o.duration := by
  have hdoes := h.does
  cases o with
  | edited | renamed | configured | passed =>
      subst hdoes
      exact ⟨rfl, rfl⟩
  | submitted =>
      obtain ⟨-, -, -, rfl⟩ := hdoes
      exact ⟨rfl, rfl⟩
  | refused =>
      obtain ⟨-, rfl⟩ := hdoes
      exact ⟨rfl, rfl⟩
  | arrived e => cases hdoes <;> exact ⟨rfl, rfl⟩

/-- A dead worker stays dead. -/
theorem Step.alive (h : Step t s o s') (halive : s'.worker.alive = true) :
    s.worker.alive = true := by
  have hdoes := h.does
  cases o with
  | edited | renamed | configured | passed =>
      subst hdoes
      exact halive
  | submitted => exact hdoes.1
  | refused =>
      obtain ⟨-, rfl⟩ := hdoes
      exact halive
  | arrived e =>
      cases hdoes with
      | completed hqueue hanswers hsame => exact hsame.symm.trans halive
      | discarded hqueue hsame => exact hsame.symm.trans halive
      | closed hqueue hdead => exact absurd (hdead.symm.trans halive) Bool.false_ne_true

theorem Run.clock (run : Run t start log s) :
    s.debounce = start.debounce ∧ s.now = start.now + elapsed log := by
  induction run with
  | begin => exact ⟨rfl, rfl⟩
  | next run step ih =>
      obtain ⟨hdebounce, hnow⟩ := step.clock
      refine ⟨hdebounce.trans ih.1, ?_⟩
      rw [hnow, ih.2, elapsed_append, Nat.add_assoc]
      rfl

/-- The quiet period that is on was started by the last call, and nothing was submitted since. -/
theorem Run.armedAt (run : Run t (ofSettings settings) log s) {d : Nat}
    (hd : s.deadline = some d) : ∃ called, ArmedAt log called ∧ called + settings.debounce = d := by
  induction run generalizing d with
  | begin => cases hd
  | @next log s o s' run step ih =>
      obtain ⟨hdebounce, hnow⟩ := run.clock
      cases step.ticks with
      | started harms hquiet hdeadline =>
          refine ⟨elapsed log, armedAt_concat_of_arms log harms, ?_⟩
          rw [hdeadline, hdebounce, hnow] at hd
          simpa [ofSettings] using hd
      | fired _ _ hdeadline => cases hdeadline.symm.trans hd
      | cancelled hdeadline => cases hdeadline.symm.trans hd
      | refused hdeadline => cases hdeadline.symm.trans hd
      | kept harms hquiet hdeadline =>
          obtain ⟨called, harmed, heq⟩ := ih (hdeadline.symm.trans hd)
          exact ⟨called, harmed.concat harms hquiet, heq⟩

/-- Without a call nothing starts the timer. -/
theorem Run.timed_eq_nil (run : Run t start log s) (hstart : start.deadline = none)
    (hcalls : calls log = []) : s.deadline = none ∧ timed log = [] := by
  induction run with
  | begin => exact ⟨hstart, rfl⟩
  | @next log s o s' run step ih =>
      rw [calls_append, List.append_eq_nil_iff] at hcalls
      obtain ⟨hnone, htimed⟩ := ih hcalls.1
      rw [timed_append, htimed]
      cases step.ticks with
      | started harms => exact absurd hcalls.2 (by simp [calls_singleton harms])
      | fired hpending => cases hnone.symm.trans hpending
      | cancelled hdeadline => exact ⟨hdeadline, rfl⟩
      | refused hdeadline => exact ⟨hdeadline, rfl⟩
      | kept harms hquiet hdeadline => exact ⟨hdeadline.trans hnone, timed_singleton hquiet⟩

/-- A step starts the timer by a call, and it submits a job by request or stops the timer for it. -/
theorem Step.length_jobs_le (step : Step t s o s') :
    (jobs [o]).length + s'.deadline.toList.length ≤
      s.deadline.toList.length + ((calls [o]).length + (requested [o]).length) := by
  cases step.ticks with
  | started harms hquiet hdeadline =>
      simp only [jobs_cons, jobs_nil, hquiet, hdeadline, calls_singleton harms,
        Option.toList_none, Option.toList_some, List.append_nil, List.length_nil,
        List.length_singleton]
      omega
  | fired hpending hdue hdeadline =>
      rw [hpending, hdeadline]
      exact Nat.le_refl 1
  | cancelled hdeadline =>
      rw [hdeadline]
      exact Nat.le_add_left 1 _
  | refused hdeadline =>
      rw [hdeadline]
      exact Nat.zero_le _
  | kept harms hquiet hdeadline =>
      rw [hdeadline, jobs_cons, hquiet]
      simp

/-- A job comes of a call or was asked for, and a quiet period that is on has one to come. -/
theorem Run.length_jobs_le (run : Run t start log s) (hstart : start.deadline = none) :
    (jobs log).length + s.deadline.toList.length ≤
      (calls log).length + (requested log).length := by
  induction run with
  | begin => simp [hstart]
  | next run step ih =>
      have hstep := step.length_jobs_le
      simp only [jobs_append, calls_append, requested_append, List.length_append]
      omega

/-- A call starts the whole quiet period. -/
theorem Step.deadline_of_arms (step : Step t s o s') (harms : o.Arms) :
    s'.deadline = some (s'.now + s'.debounce) ∧ timed [o] = [] := by
  have hdoes := step.does
  cases o with
  | edited | renamed | configured =>
      subst hdoes
      exact ⟨rfl, rfl⟩
  | _ => exact harms.elim

/-- In a burst the timer is still on for the last call, or it has submitted once. The latter takes a
whole quiet period, after which no call continues the burst. -/
theorem Run.burst {since : Nat} (burst : Burst start.debounce log since) (run : Run t start log s) :
    (timed log = [] ∧ ∃ d, s.deadline = some d ∧ d + since = s.now + start.debounce) ∨
      ((timed log).length = 1 ∧ s.deadline = none ∧ start.debounce ≤ since) := by
  induction burst generalizing s with
  | @first o harms =>
      have hconcat : Run t start ([] ++ [o]) s := run
      obtain ⟨s₀, run₀, step⟩ := hconcat.of_concat
      obtain ⟨hdeadline, htimed⟩ := step.deadline_of_arms harms
      refine Or.inl ⟨htimed, _, hdeadline, ?_⟩
      rw [run.clock.1, Nat.add_zero]
  | @again log since o burst harms hsoon ih =>
      obtain ⟨s₀, run₀, step⟩ := run.of_concat
      obtain ⟨hdeadline, htimed⟩ := step.deadline_of_arms harms
      rcases ih run₀ with ⟨hbefore, -⟩ | ⟨-, -, hle⟩
      · refine Or.inl ⟨by simp [hbefore, htimed], _, hdeadline, ?_⟩
        rw [run.clock.1, Nat.add_zero]
      · exact absurd hsoon (Nat.not_lt.mpr hle)
  | @quiet log since o burst harms hrequested htaken ih =>
      obtain ⟨s₀, run₀, step⟩ := run.of_concat
      have hnow := step.clock.2
      cases step.ticks with
      | started hstarts => exact absurd hstarts harms
      | fired hpending hdue hdeadline =>
          rcases ih run₀ with ⟨htimed, d, hd, heq⟩ | ⟨-, hnone, -⟩
          · obtain rfl := Option.some.inj (hpending.symm.trans hd)
            refine Or.inr ⟨?_, hdeadline, ?_⟩
            · rw [timed_append, htimed]
              rfl
            · omega
          · cases hnone.symm.trans hpending
      | cancelled => cases hrequested
      | refused => exact absurd rfl htaken
      | kept hunarmed hquiet hdeadline =>
          rw [timed_append, timed_singleton hquiet, List.append_nil, hdeadline]
          rcases ih run₀ with ⟨htimed, d, hd, heq⟩ | ⟨hlength, hnone, hle⟩
          · refine Or.inl ⟨htimed, d, hd, ?_⟩
            omega
          · refine Or.inr ⟨hlength, hnone, ?_⟩
            omega

theorem fire?_ne_none (hdue : s.isDue = true) : s.fire? ≠ none := by
  rw [fire?, if_pos hdue]
  split <;> exact Option.some_ne_none _

/-- Once a whole quiet period has passed since the last call of a burst, the timer submits one job
before there are no more events. -/
theorem Run.length_timed_eq_one {since : Nat} (burst : Burst start.debounce log since)
    (run : Run t start log s) (hpassed : start.debounce ≤ since) (hevent : s.nextEvent? t = none) :
    (timed log).length = 1 := by
  rcases run.burst burst with ⟨-, d, hd, heq⟩ | ⟨hlength, -⟩
  · have hdue : s.isDue = true := isDue_iff.mpr ⟨d, hd, by omega⟩
    exact absurd (Option.or_eq_none_iff.mp hevent).1 (fire?_ne_none hdue)
  · exact hlength

/-- A bound on the events to come when nothing else happens: the timer gives one and adds a job. -/
def rank (s : Scheduler) : Nat := s.worker.queue.length + 2 * s.deadline.toList.length

theorem Step.rank_lt (h : Step t s o s') (hpolled : o.Polled) (halive : s'.worker.alive = true) :
    s'.rank < s.rank := by
  have hdoes := h.does
  cases o with
  | submitted byTimer j =>
      cases byTimer with
      | true =>
          obtain ⟨-, -, hdue, rfl⟩ := hdoes
          obtain ⟨d, hd, -⟩ := isDue_iff.mp (hdue rfl)
          simp [rank, enqueued, hd]
      | false => exact hpolled.elim
  | arrived e =>
      cases hdoes with
      | completed hqueue => simp [rank, hqueue]
      | discarded hqueue => simp [rank, hqueue]
      | closed hqueue hdead => exact absurd (hdead.symm.trans halive) Bool.false_ne_true
  | _ => exact hpolled.elim

/-- As long as the worker is alive, events run out. -/
theorem Run.length_add_rank_le {polled : Log} (run : Run t s polled s')
    (hpolled : ∀ o ∈ polled, o.Polled) (halive : s'.worker.alive = true) :
    polled.length + s'.rank ≤ s.rank := by
  induction run with
  | begin => simp
  | @next polled s₁ o s₂ run step ih =>
      have hle := ih (fun o' ho' => hpolled o' (List.mem_append_left _ ho')) (step.alive halive)
      have hlt := step.rank_lt (hpolled o (by simp)) halive
      rw [List.length_append, List.length_singleton]
      omega

/-- While there is an event and the worker is alive, one can be handed out. -/
theorem exists_polled_step (halive : s.worker.alive = true) (h : s.nextEvent? t ≠ none) :
    ∃ o s', Step t s o s' ∧ o.Polled := by
  by_cases hdue : s.isDue = true
  · have hfire : s.fire? = some (.submitted s.next, s.enqueued) := by
      rw [fire?, if_pos hdue, compileNow_eq, if_pos halive]
    exact ⟨_, _, .event (.fired hfire), trivial⟩
  · rw [nextEvent?, fire?, if_neg hdue, Option.none_or] at h
    obtain ⟨⟨e, s'⟩, hreceive⟩ := Option.ne_none_iff_exists'.mp h
    exact ⟨_, s', .event (.received hreceive), trivial⟩

/-- Events can be asked for until there is none left or the worker has died. -/
theorem exists_polled (t : Transformer) (s : Scheduler) :
    ∃ polled s', Run t s polled s' ∧ (∀ o ∈ polled, o.Polled) ∧
      (s'.worker.alive = true → s'.nextEvent? t = none) := by
  induction hrank : s.rank using Nat.strongRecOn generalizing s with
  | ind n ih =>
      by_cases hdone : s.worker.alive = true → s.nextEvent? t = none
      · exact ⟨[], s, .begin, nofun, hdone⟩
      obtain ⟨halive, hevent⟩ := Classical.not_imp.mp hdone
      obtain ⟨o, s₁, step, hpolled⟩ := exists_polled_step halive hevent
      have run₁ : Run t s [o] s₁ := .next .begin step
      by_cases halive₁ : s₁.worker.alive = true
      · obtain ⟨polled, s₂, run₂, hrest, hdone₂⟩ :=
          ih _ (hrank ▸ step.rank_lt hpolled halive₁) s₁ rfl
        exact ⟨[o] ++ polled, s₂, run₁.append run₂, by simpa using ⟨hpolled, hrest⟩, hdone₂⟩
      · exact ⟨[o], s₁, run₁, by simpa using hpolled, fun h => absurd h halive₁⟩

/-- The timer submits a job only when the last call since the last submission is at least a quiet
period ago. When that much time has passed since the last call of a burst, asking for events comes
to an end, and by then the timer has submitted exactly one job, however its turn was chosen. An
explicit compilation stops the timer until the next call. So there are at most as many jobs as
calls and explicit compilations. -/
theorem quiet_period (run : Run t (ofSettings settings) log s) :
    s.now = elapsed log ∧
      (∀ before j after, log = before ++ .submitted true j :: after →
        ∃ called, ArmedAt before called ∧ called + settings.debounce ≤ elapsed before) ∧
      (∀ burst since s₁, Burst settings.debounce burst since → Run t s burst s₁ →
        settings.debounce ≤ since →
          (∃ polled s₂, Run t s₁ polled s₂ ∧ (∀ o ∈ polled, o.Polled) ∧
            (s₂.worker.alive = true → s₂.nextEvent? t = none)) ∧
          ∀ polled s₂, Run t s₁ polled s₂ → (∀ o ∈ polled, o.Polled) →
            s₂.worker.alive = true → polled.length ≤ s₁.rank ∧
              (s₂.nextEvent? t = none → (timed (burst ++ polled)).length = 1)) ∧
      (s.compileNow.2.deadline = none ∧
        ∀ later s', Run t s.compileNow.2 later s' → calls later = [] → timed later = []) ∧
      (jobs log).length ≤ (calls log).length + (requested log).length := by
  obtain ⟨hdebounce, hnow⟩ := run.clock
  have hstopped : s.compileNow.2.deadline = none := by
    rw [compileNow_eq]
    split <;> rfl
  refine ⟨hnow.trans (Nat.zero_add _), ?_, ?_, ⟨hstopped, ?_⟩, ?_⟩
  · rintro before j after rfl
    obtain ⟨s₁, s₂, run₁, step⟩ := run.split
    cases step.ticks with
    | fired hpending hdue =>
        obtain ⟨called, harmed, rfl⟩ := run₁.armedAt hpending
        rw [run₁.clock.2] at hdue
        exact ⟨called, harmed, Nat.le_trans hdue (Nat.le_of_eq (Nat.zero_add _))⟩
    | kept _ hquiet => cases hquiet
    | started harms => exact harms.elim
  · intro burst since s₁ hburst run₁ hpassed
    have hlength : s.debounce = settings.debounce := hdebounce
    rw [← hlength] at hburst hpassed
    refine ⟨exists_polled t s₁, ?_⟩
    intro polled s₂ run₂ hpolled halive
    refine ⟨Nat.le_of_add_right_le (run₂.length_add_rank_le hpolled halive), ?_⟩
    exact (run₁.append run₂).length_timed_eq_one (hburst.polled hpolled) hpassed
  · intro later s' run' hcalls
    exact (run'.timed_eq_nil hstopped hcalls).2
  · exact Nat.le_of_add_right_le (run.length_jobs_le rfl)

/-- A file name comes soon after a text, and then there is quiet. -/
def hurried : Log := [.edited "a", .passed 300, .renamed "App.tsx", .passed 500]

/-- The scheduler after `hurried`. -/
def due : Scheduler :=
  ((((ofSettings .default).edit "a").advance 300).rename "App.tsx").advance 500

/-- The timer submits text and file name at once. -/
def settled : Log :=
  [.submitted true ⟨"a", "App.tsx", .object [], 1⟩,
    .arrived (.completed ⟨some "a", none, none, .zero, 1⟩)]

theorem quiet_period_hurried :
    Run echo (ofSettings .default) hurried due ∧ ∃ s, Run echo due settled s ∧
      (timed (hurried ++ settled)).length = 1 ∧
      ∃ called, ArmedAt hurried called ∧ called + 500 ≤ elapsed hurried := by
  have edited : Run echo (ofSettings .default) _ _ := .next .begin (.edit "a")
  have renamed := (edited.next (.advance 300)).next (.rename "App.tsx")
  have quiet : Run echo (ofSettings .default) hurried due := renamed.next (.advance 500)
  have submitted : Run echo due _ _ := .next .begin (.event (.fired rfl))
  have polled : Run echo due settled _ := submitted.next (.event (.received rfl))
  have first : Burst 500 [.edited "a"] 0 := .first trivial
  have early : Burst 500 [.edited "a", .passed 300] 300 := first.quiet not_false rfl nofun
  have again : Burst 500 [.edited "a", .passed 300, .renamed "App.tsx"] 0 :=
    early.again trivial (by decide)
  have burst : Burst 500 hurried 500 := again.quiet not_false rfl nofun
  obtain ⟨-, hfired, -⟩ := quiet_period (quiet.append polled)
  obtain ⟨-, -, hburst, -⟩ := quiet_period (.begin : Run echo (ofSettings .default) [] _)
  obtain ⟨-, hends⟩ := hburst hurried 500 due burst quiet (Nat.le_refl 500)
  obtain ⟨-, hone⟩ := hends settled _ polled (by simp [settled, Occurrence.Polled]) rfl
  exact ⟨quiet, _, polled, hone rfl, hfired hurried _ _ rfl⟩

end Scheduler

end Provenance

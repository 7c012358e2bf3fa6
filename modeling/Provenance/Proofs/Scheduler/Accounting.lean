import Provenance.Proofs.Scheduler.Run

/-!
# Accounting for jobs and events

Jobs are numbered in the order of their submission, and the worker answers them in that order.
So the numbers that a scheduler keeps, the queue of its worker and what it is doing are determined
by the log of its run.

## Implementation notes

`Accounted` is the invariant. It allows for a worker that has died over a job: the queue is then
empty although a job is unanswered. Only refused submissions are excluded, since they use up
numbers.
-/

namespace Provenance.Scheduler

open Log

variable {t : Transformer} {settings : Settings} {log : Log} {s s' : Scheduler} {o : Occurrence}

/-- The submitted jobs are numbered from 1, and the scheduler knows the last number. -/
structure Numbered (log : Log) (s : Scheduler) : Prop where
  numbered : (jobs log).map Job.sequence = List.range' 1 (jobs log).length
  next : s.next = (jobs log).length + 1
  latest : s.latest = ((jobs log).map Job.sequence).getLast?

/-- The answered jobs are the first of the submitted ones, and the worker holds the others unless
it has died over one of them. -/
structure Accounted (log : Log) (s : Scheduler) : Prop extends Numbered log s where
  answered : answers log = List.range' 1 s.worker.answered
  bounded : s.worker.answered ≤ (jobs log).length
  queued : s.worker.alive = true → s.worker.queue = (jobs log).drop s.worker.answered
  dead : s.worker.alive = false →
    s.worker.queue = [] ∧ s.worker.answered < (jobs log).length
  awaiting : s.awaiting = true ↔ s.worker.answered < (jobs log).length

namespace Numbered

/-- Only submissions matter to the numbers. -/
theorem frame (h : Numbered log s) {log' : Log} (hjobs : jobs log' = jobs log)
    (hnext : s'.next = s.next) (hlatest : s'.latest = s.latest) : Numbered log' s' where
  numbered := hjobs ▸ h.numbered
  next := by rw [hjobs, hnext, h.next]
  latest := by rw [hjobs, hlatest, h.latest]

/-- A new job takes the next number. -/
theorem enqueued (h : Numbered log s) (byTimer : Bool) :
    Numbered (log ++ [.submitted byTimer s.job]) s.enqueued := by
  have hlength : (jobs log ++ [s.job]).length = (jobs log).length + 1 := by simp
  have hsequence : s.job.sequence = 1 + (jobs log).length := by
    rw [Nat.add_comm]
    exact h.next
  constructor
  · rw [jobs_submitted, hlength, List.range'_1_concat, List.map_append, h.numbered, ← hsequence]
    rfl
  · rw [jobs_submitted, hlength, ← h.next]
    rfl
  · rw [jobs_submitted, List.map_append, List.map_singleton, List.getLast?_concat]
    rfl

end Numbered

namespace Accounted

theorem begin : Accounted [] (ofSettings settings) where
  numbered := rfl
  next := rfl
  latest := rfl
  answered := rfl
  bounded := Nat.le_refl 0
  queued _ := rfl
  dead h := absurd h Bool.noConfusion
  awaiting := by simp [ofSettings]

/-- A step that submits and answers nothing leaves the account as it is. -/
theorem frame (h : Accounted log s) (hjob : o.job? = none) (hevent : o.event? = none)
    (hworker : s'.worker = s.worker) (hnext : s'.next = s.next) (hlatest : s'.latest = s.latest)
    (hawaiting : s'.awaiting = s.awaiting) : Accounted (log ++ [o]) s' := by
  have hjobs : jobs (log ++ [o]) = jobs log := by simp [hjob]
  have hanswers : answers (log ++ [o]) = answers log := by simp [hevent]
  refine ⟨h.toNumbered.frame hjobs hnext hlatest, ?_, ?_, ?_, ?_, ?_⟩
  · rw [hanswers, hworker]
    exact h.answered
  · rw [hjobs, hworker]
    exact h.bounded
  · rw [hjobs, hworker]
    exact h.queued
  · rw [hjobs, hworker]
    exact h.dead
  · rw [hjobs, hworker, hawaiting]
    exact h.awaiting

/-- A new job takes the last place in the queue. -/
theorem enqueued (h : Accounted log s) (halive : s.worker.alive = true) (byTimer : Bool) :
    Accounted (log ++ [.submitted byTimer s.job]) s.enqueued := by
  have hlt : s.worker.answered < (jobs log ++ [s.job]).length := by
    rw [List.length_append]
    exact Nat.lt_succ_of_le h.bounded
  refine ⟨h.toNumbered.enqueued byTimer, ?_, ?_, ?_, ?_, ?_⟩
  · rw [answers_append, answers_of_event?_eq_none rfl, List.append_nil]
    exact h.answered
  · rw [jobs_submitted]
    exact Nat.le_of_lt hlt
  · intro _
    rw [jobs_submitted]
    change s.worker.queue ++ [s.job] = (jobs log ++ [s.job]).drop s.worker.answered
    rw [List.drop_append_of_le_length h.bounded, h.queued halive]
  · intro hdead
    exact absurd (halive.symm.trans hdead) Bool.noConfusion
  · rw [jobs_submitted]
    exact iff_of_true rfl hlt

/-- The oldest job of the queue is the first one that was not answered. -/
theorem oldest (h : Accounted log s) {j : Job} {rest : List Job}
    (hqueue : s.worker.queue = j :: rest) :
    s.worker.alive = true ∧ (jobs log).drop s.worker.answered = j :: rest ∧
      j.sequence = s.worker.answered + 1 ∧
      (jobs log).length = s.worker.answered + 1 + rest.length := by
  have halive : s.worker.alive = true := by
    cases halive : s.worker.alive with
    | true => rfl
    | false =>
        rw [(h.dead halive).1] at hqueue
        cases hqueue
  have hdrop : (jobs log).drop s.worker.answered = j :: rest := by
    rw [← h.queued halive, hqueue]
  -- Without the answered jobs, `numbered` gives the numbers of the queue.
  have hnumbers := congrArg (List.drop s.worker.answered) h.numbered
  rw [← List.map_drop, hdrop, List.map_cons, List.drop_range'] at hnumbers
  have hlength := congrArg List.length hdrop
  rw [List.length_drop, List.length_cons] at hlength
  obtain ⟨hfirst, -, -⟩ := List.range'_eq_cons_iff.mp hnumbers.symm
  refine ⟨halive, hdrop, by omega, by omega⟩

/-- The oldest job of the queue is the latest one if no other is behind it. -/
theorem latest_eq_iff (h : Accounted log s) {j : Job} {rest : List Job}
    (hqueue : s.worker.queue = j :: rest) : s.latest = some j.sequence ↔ rest = [] := by
  obtain ⟨-, -, hsequence, hlength⟩ := h.oldest hqueue
  rw [h.latest, h.numbered, List.getLast?_range', if_neg (by omega), Option.some_inj,
    ← List.length_eq_zero_iff]
  omega

/-- A response takes its job from the queue and adds its number to the answers. -/
theorem responded (h : Accounted log s) {w : Worker} {j : Job} {e : Event} {awaiting : Bool}
    (hqueue : s.worker.queue = j :: w.queue) (halive : w.alive = s.worker.alive)
    (hanswered : w.answered = s.worker.answered + 1) (he : e.answered? = some j.sequence)
    (hawaiting : awaiting = true ↔ w.queue ≠ []) :
    Accounted (log ++ [.arrived e]) { s with worker := w, awaiting := awaiting } := by
  obtain ⟨hlive, hdrop, hsequence, hlength⟩ := h.oldest hqueue
  refine ⟨h.toNumbered.frame (jobs_arrived log e) rfl rfl, ?_, ?_, ?_, ?_, ?_⟩
  · rw [answers_append, answers_arrived, he, h.answered, hanswered, List.range'_1_concat,
      hsequence, Nat.add_comm 1]
    rfl
  · rw [jobs_arrived]
    change w.answered ≤ _
    omega
  · intro _
    rw [jobs_arrived]
    change w.queue = (jobs log).drop w.answered
    rw [hanswered, ← List.tail_drop, hdrop, List.tail_cons]
  · intro hdead
    exact absurd ((halive.trans hlive).symm.trans hdead) Bool.noConfusion
  · rw [jobs_arrived]
    change awaiting = true ↔ w.answered < _
    rw [hawaiting, ← List.length_pos_iff]
    omega

/-- The end of the worker leaves a job unanswered. -/
theorem closed (h : Accounted log s) {w : Worker} (hqueue : w.queue = []) (hdead : w.alive = false)
    (hanswered : w.answered = s.worker.answered)
    (hcause : s.worker.queue ≠ [] ∨ s.worker.alive = false) :
    Accounted (log ++ [.arrived .workerClosed]) { s with worker := w } := by
  -- The worker broke down over the oldest job of its queue, now or before.
  have hlt : s.worker.answered < (jobs log).length := by
    rcases hcause with hne | hdead
    · obtain ⟨j, rest, hq⟩ := List.exists_cons_of_ne_nil hne
      obtain ⟨-, -, -, hlength⟩ := h.oldest hq
      omega
    · exact (h.dead hdead).2
  refine ⟨h.toNumbered.frame (jobs_arrived log _) rfl rfl, ?_, ?_, ?_, ?_, ?_⟩
  · rw [answers_append, answers_arrived, hanswered, h.answered]
    exact List.append_nil _
  · rw [jobs_arrived, hanswered]
    exact h.bounded
  · intro halive
    exact absurd (halive.symm.trans hdead) Bool.noConfusion
  · intro _
    rw [jobs_arrived, hanswered]
    exact ⟨hqueue, hlt⟩
  · rw [jobs_arrived, hanswered]
    exact h.awaiting

/-- Every step but a refused submission preserves the account. -/
theorem step (h : Accounted log s) (hstep : Step t s o s') (ho : o ≠ .refused) :
    Accounted (log ++ [o]) s' := by
  have hdoes := hstep.does
  cases o with
  | edited | renamed | configured | passed =>
      subst hdoes
      exact h.frame rfl rfl rfl rfl rfl rfl
  | submitted byTimer j =>
      obtain ⟨halive, rfl, -, rfl⟩ := hdoes
      exact h.enqueued halive byTimer
  | refused => exact absurd rfl ho
  | arrived e =>
      cases hdoes with
      | completed hqueue hanswers halive hanswered hlatest =>
          refine h.responded hqueue halive hanswered (congrArg some hanswers.sequence_eq) ?_
          simp [(h.latest_eq_iff hqueue).mp hlatest]
      | discarded hqueue halive hanswered hlatest =>
          refine h.responded hqueue halive hanswered rfl ?_
          obtain ⟨-, -, -, hlength⟩ := h.oldest hqueue
          exact iff_of_true (h.awaiting.mpr (by omega)) (mt (h.latest_eq_iff hqueue).mpr hlatest)
      | closed hqueue hdead hanswered hcause =>
          exact h.closed hqueue hdead hanswered (hcause.imp And.left And.right)

end Accounted

/-- Every run without a refused submission is accounted for. -/
theorem accounted (run : Run t (ofSettings settings) log s) (hlog : .refused ∉ log) :
    Accounted log s := by
  induction run with
  | begin => exact .begin
  | next run step ih =>
      rw [List.mem_append, List.mem_singleton, not_or] at hlog
      exact (ih hlog.1).step step (Ne.symm hlog.2)

/-- A quiet period is on after a step that starts it, or that leaves it on and submits nothing. -/
theorem deadline_step (hstep : Step t s o s') (ho : o ≠ .refused) :
    s'.deadline.isSome = true ↔ o.Arms ∨ o.job? = none ∧ s.deadline.isSome = true := by
  have hdoes := hstep.does
  cases o with
  | edited | renamed | configured =>
      subst hdoes
      exact iff_of_true rfl (Or.inl trivial)
  | passed =>
      subst hdoes
      simp [Occurrence.Arms, Occurrence.job?, advance]
  | submitted byTimer j =>
      obtain ⟨-, -, -, rfl⟩ := hdoes
      simp [Occurrence.Arms, Occurrence.job?, enqueued]
  | refused => exact absurd rfl ho
  | arrived e => cases hdoes <;> simp [Occurrence.Arms, Occurrence.job?]

/-- The quiet period is on exactly if it was started after the last submission. -/
theorem deadline_isSome_iff_armed (run : Run t (ofSettings settings) log s)
    (hlog : .refused ∉ log) : s.deadline.isSome = true ↔ Armed log := by
  induction run with
  | begin => exact iff_of_false Bool.noConfusion not_armed_nil
  | next run step ih =>
      rw [List.mem_append, List.mem_singleton, not_or] at hlog
      rw [deadline_step step (Ne.symm hlog.2), armed_concat, ih hlog.1]

/-- The latest outcome is awaited exactly if the last job was not answered. -/
theorem Accounted.awaiting_iff_unanswered (h : Accounted log s) :
    s.awaiting = true ↔ Unanswered log := by
  have hlast : ((jobs log).map Job.sequence).getLast? =
      if (jobs log).length = 0 then none else some (1 + (jobs log).length - 1) := by
    rw [h.numbered, List.getLast?_range']
  rw [List.getLast?_map] at hlast
  have hbounded := h.bounded
  rw [h.awaiting]
  constructor
  · intro hlt
    rw [if_neg (by omega), Option.map_eq_some_iff] at hlast
    obtain ⟨j, hj, hsequence⟩ := hlast
    refine ⟨j, hj, ?_⟩
    rw [h.answered, List.mem_range'_1]
    omega
  · rintro ⟨j, hj, hnotin⟩
    rw [hj, Option.map_some] at hlast
    split at hlast
    · cases hlast
    · have hsequence := Option.some.inj hlast
      rw [h.answered, List.mem_range'_1] at hnotin
      omega

/-- The worker has taken every job, and every response was the answer to one. -/
structure Living (log : Log) (s : Scheduler) : Prop where
  alive : s.worker.alive = true
  taken : .refused ∉ log
  answering : ∀ e ∈ arrivals log, e.answered?.isSome = true

theorem Living.next (h : Living log s) (halive : s'.worker.alive = true) (ho : o ≠ .refused)
    (hevent : ∀ e, o.event? = some e → e.answered?.isSome = true) : Living (log ++ [o]) s' where
  alive := halive
  taken := by
    rw [List.mem_append, List.mem_singleton, not_or]
    exact ⟨h.taken, Ne.symm ho⟩
  answering := by
    intro e he
    rw [arrivals_append, List.mem_append] at he
    rcases he with he | he
    · exact h.answering e he
    · exact hevent e (by simpa using he)

/-- A worker whose transformer does not break down while it is loaded never dies. -/
theorem living (loads : ∀ n, t.load n ≠ .breakdown) (run : Run t (ofSettings settings) log s) :
    Living log s := by
  induction run with
  | begin => exact ⟨rfl, List.not_mem_nil, fun _ he => absurd he List.not_mem_nil⟩
  | @next log s o s' run step ih =>
      have hdoes := step.does
      cases o with
      | edited | renamed | configured | passed =>
          subst hdoes
          exact ih.next ih.alive nofun nofun
      | submitted byTimer j =>
          obtain ⟨halive, -, -, rfl⟩ := hdoes
          exact ih.next halive nofun nofun
      | refused => exact absurd (ih.alive.symm.trans hdoes.1) Bool.noConfusion
      | arrived e =>
          cases hdoes with
          | completed hqueue hanswers halive =>
              refine ih.next (halive.trans ih.alive) nofun ?_
              rintro e ⟨⟩
              rfl
          | discarded hqueue halive =>
              refine ih.next (halive.trans ih.alive) nofun ?_
              rintro e ⟨⟩
              rfl
          | closed hqueue hdead hanswered hcause =>
              rcases hcause with ⟨-, n, hload⟩ | ⟨-, hdied⟩
              · exact absurd hload (loads n)
              · exact absurd (ih.alive.symm.trans hdied) Bool.noConfusion

theorem Living.length_arrivals (h : Living log s) :
    (arrivals log).length = (answers log).length :=
  (List.filterMap_length_eq_length.mpr h.answering).symm

/-- A response answers the first job that was not answered: it is accepted if no later job was
submitted and dropped otherwise. -/
theorem Accounted.arrival (h : Accounted log s) {e : Event} (hreceives : Receives t s e s')
    (he : e.answered?.isSome = true) :
    ∃ j later, (jobs log).drop s.worker.answered = j :: later ∧
      (later = [] ∧ (∃ o, e = .completed o ∧ o.sequence = j.sequence) ∨
        later ≠ [] ∧ e = .discarded j.sequence) := by
  cases hreceives with
  | completed hqueue hanswers halive hanswered hlatest =>
      have hlater := (h.latest_eq_iff hqueue).mp hlatest
      exact ⟨_, _, (h.oldest hqueue).2.1, Or.inl ⟨hlater, _, rfl, hanswers.sequence_eq⟩⟩
  | discarded hqueue halive hanswered hlatest =>
      have hlater := mt (h.latest_eq_iff hqueue).mpr hlatest
      exact ⟨_, _, (h.oldest hqueue).2.1, Or.inr ⟨hlater, rfl⟩⟩
  | closed => cases he

theorem activity_eq_inFlight_iff : s.activity = .inFlight ↔ s.awaiting = true := by
  rw [activity]
  cases s.awaiting <;> cases s.deadline <;> simp

theorem activity_eq_pendingSubmit_iff :
    s.activity = .pendingSubmit ↔ ¬ s.awaiting = true ∧ s.deadline.isSome = true := by
  rw [activity]
  cases s.awaiting <;> cases s.deadline <;> simp

theorem activity_eq_idle_iff :
    s.activity = .idle ↔ ¬ s.awaiting = true ∧ ¬ s.deadline.isSome = true := by
  rw [activity]
  cases s.awaiting <;> cases s.deadline <;> simp

/-- As long as loading does not break down, jobs are numbered without a gap and every response
gives the event of the first unanswered job, completed exactly if no later job was submitted. A
drained worker has answered every job once, and the activity can be told from the log. -/
theorem event_accounting (loads : ∀ n, t.load n ≠ .breakdown)
    (run : Run t (ofSettings settings) log s) :
    (jobs log).map Job.sequence = List.range' 1 (jobs log).length ∧
      answers log = List.range' 1 s.worker.answered ∧
      (arrivals log).length = s.worker.answered ∧
      (∀ before e after, log = before ++ .arrived e :: after →
        ∃ j later, (jobs before).drop (arrivals before).length = j :: later ∧
          (later = [] ∧ (∃ o, e = .completed o ∧ o.sequence = j.sequence) ∨
            later ≠ [] ∧ e = .discarded j.sequence)) ∧
      s.worker.queue = (jobs log).drop (arrivals log).length ∧
      (s.worker.queue = [] → answers log = (jobs log).map Job.sequence) ∧
      (s.activity = .inFlight ↔ Unanswered log) ∧
      (s.activity = .pendingSubmit ↔ ¬ Unanswered log ∧ Armed log) ∧
      (s.activity = .idle ↔ ¬ Unanswered log ∧ ¬ Armed log) := by
  have hliving := living loads run
  have h := accounted run hliving.taken
  have harmed := deadline_isSome_iff_armed run hliving.taken
  have hunanswered := h.awaiting_iff_unanswered
  have hcount (log' : Log) (s' : Scheduler) (run' : Run t (ofSettings settings) log' s') :
      (arrivals log').length = s'.worker.answered := by
    have hliving' := living loads run'
    rw [hliving'.length_arrivals, (accounted run' hliving'.taken).answered, List.length_range']
  have hqueue : s.worker.queue = (jobs log).drop (arrivals log).length := by
    rw [hcount log s run, h.queued hliving.alive]
  refine ⟨h.numbered, h.answered, hcount log s run, ?_, hqueue, ?_, ?_, ?_, ?_⟩
  · rintro before e after rfl
    obtain ⟨s₁, s₂, run₁, step⟩ := run.split
    have he : e.answered?.isSome = true :=
      hliving.answering e (by simp [Occurrence.event?])
    rw [hcount before s₁ run₁]
    exact (accounted run₁ (living loads run₁).taken).arrival step.does he
  · intro hdrained
    rw [hqueue, List.drop_eq_nil_iff, hcount log s run] at hdrained
    rw [h.answered, h.numbered, Nat.le_antisymm hdrained h.bounded]
  · rw [activity_eq_inFlight_iff, hunanswered]
  · rw [activity_eq_pendingSubmit_iff, hunanswered, harmed]
  · rw [activity_eq_idle_iff, hunanswered, harmed]

/-- A transformer that generates the code it is given. -/
def echo : Transformer where
  load _ := .ready
  reply _ c := .generated ⟨c.code, none⟩
  time _ := .zero

/-- A job is superseded before its outcome arrives, and so it is dropped. -/
def superseding : Log :=
  [.edited "a", .submitted false ⟨"a", "Demo.tsx", .object [], 1⟩,
    .submitted false ⟨"a", "Demo.tsx", .object [], 2⟩, .arrived (.discarded 1),
    .arrived (.completed ⟨some "a", none, none, .zero, 2⟩)]

theorem event_accounting_superseding :
    (∀ n, echo.load n ≠ .breakdown) ∧
      ∃ s, Run echo (ofSettings .default) superseding s ∧ s.worker.queue = [] ∧
        answers superseding = (jobs superseding).map Job.sequence ∧
        (s.activity = .idle ↔ ¬ Unanswered superseding ∧ ¬ Armed superseding) := by
  have loads : ∀ n, echo.load n ≠ .breakdown := fun _ => Loading.noConfusion
  have edited : Run echo (ofSettings .default) _ _ := .next .begin (.edit "a")
  have submitted := (edited.next (.compile rfl)).next (.compile rfl)
  have discarded := submitted.next (.event (.received rfl))
  have run : Run echo (ofSettings .default) superseding _ :=
    discarded.next (.event (.received rfl))
  obtain ⟨-, -, -, -, -, hdrained, -, -, hidle⟩ := event_accounting loads run
  exact ⟨loads, _, run, rfl, hdrained rfl, hidle⟩

end Provenance.Scheduler

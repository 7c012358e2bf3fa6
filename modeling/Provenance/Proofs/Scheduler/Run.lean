import Provenance.Proofs.Worker.Delivery
import Provenance.Scheduler

/-!
# Runs of the scheduler

A run lets edits, explicit compilations, time, the timer and the responses of the worker follow
each other in any order and logs what happened. `Step.does` says what each step leads to;
invariants of runs are proved from it.

## Implementation notes

A log records the jobs that were submitted and the events that came of responses, so that the
state of a scheduler can be compared with its whole history. Submissions of the timer and explicit
ones are logged alike up to a flag. A submission that the worker does not take uses up a number;
statements about runs without such failures exclude `Occurrence.refused` from the log.
-/

namespace Provenance

/-- One step of a run, as it is logged. -/
inductive Occurrence
  | edited (text : String)
  | renamed (fileName : String)
  | configured (options : Json.Value)
  | passed (milliseconds : Nat)
  /-- A job was submitted and taken by the worker. -/
  | submitted (byTimer : Bool) (j : Job)
  /-- A job was not taken by the worker. -/
  | refused
  /-- A response of the worker, or its end, gave an event. -/
  | arrived (e : Event)

/-- The number of the job whose outcome the event is about. -/
def Event.answered? : Event → Option Nat
  | .completed o => some o.sequence
  | .discarded n => some n
  | _ => none

/-- The outcome that the event accepts. -/
def Event.accepted? : Event → Option Outcome
  | .completed o => some o
  | _ => none

namespace Occurrence

def job? : Occurrence → Option Job
  | .submitted _ j => some j
  | _ => none

def event? : Occurrence → Option Event
  | .arrived e => some e
  | _ => none

/-- The step starts the quiet period. -/
def Arms : Occurrence → Prop
  | .edited _ | .renamed _ | .configured _ => True
  | _ => False

end Occurrence

/-- What happened in a run, first the oldest. -/
abbrev Log := List Occurrence

namespace Log

/-- The submitted jobs. -/
def jobs (log : Log) : List Job := log.filterMap Occurrence.job?

/-- The events that came of responses. -/
def arrivals (log : Log) : List Event := log.filterMap Occurrence.event?

/-- The numbers of the jobs whose outcomes were accepted or dropped. -/
def answers (log : Log) : List Nat := (arrivals log).filterMap Event.answered?

/-- The accepted outcomes. -/
def accepted (log : Log) : List Outcome := (arrivals log).filterMap Event.accepted?

/-- A quiet period was started after the last submission. -/
def Armed (log : Log) : Prop :=
  ∃ before o after, log = before ++ o :: after ∧ o.Arms ∧ jobs after = []

/-- The response to the last submitted job has not been delivered. -/
def Unanswered (log : Log) : Prop :=
  ∃ j, (jobs log).getLast? = some j ∧ j.sequence ∉ answers log

@[simp] theorem jobs_nil : jobs [] = [] := rfl

@[simp] theorem jobs_append (log log' : Log) : jobs (log ++ log') = jobs log ++ jobs log' :=
  List.filterMap_append

@[simp] theorem jobs_cons (o : Occurrence) (log : Log) :
    jobs (o :: log) = o.job?.toList ++ jobs log := by
  cases h : o.job? <;> simp [jobs, h]

@[simp] theorem arrivals_nil : arrivals [] = [] := rfl

@[simp] theorem arrivals_append (log log' : Log) :
    arrivals (log ++ log') = arrivals log ++ arrivals log' :=
  List.filterMap_append

@[simp] theorem arrivals_cons (o : Occurrence) (log : Log) :
    arrivals (o :: log) = o.event?.toList ++ arrivals log := by
  cases h : o.event? <;> simp [arrivals, h]

@[simp] theorem answers_append (log log' : Log) :
    answers (log ++ log') = answers log ++ answers log' := by
  rw [answers, arrivals_append, List.filterMap_append]
  rfl

@[simp] theorem accepted_append (log log' : Log) :
    accepted (log ++ log') = accepted log ++ accepted log' := by
  rw [accepted, arrivals_append, List.filterMap_append]
  rfl

@[simp] theorem answers_of_event?_eq_none {o : Occurrence} (h : o.event? = none) :
    answers [o] = [] := by
  simp [answers, h]

@[simp] theorem accepted_of_event?_eq_none {o : Occurrence} (h : o.event? = none) :
    accepted [o] = [] := by
  simp [accepted, h]

@[simp] theorem answers_arrived (e : Event) : answers [.arrived e] = e.answered?.toList := by
  cases e <;> rfl

@[simp] theorem accepted_arrived (e : Event) : accepted [.arrived e] = e.accepted?.toList := by
  cases e <;> rfl

@[simp] theorem jobs_submitted (log : Log) (byTimer : Bool) (j : Job) :
    jobs (log ++ [.submitted byTimer j]) = jobs log ++ [j] := by
  simp [Occurrence.job?]

@[simp] theorem jobs_arrived (log : Log) (e : Event) :
    jobs (log ++ [.arrived e]) = jobs log := by
  simp [Occurrence.job?]

/-- A step of a longer log is its last one or one of the log before. -/
theorem concat_eq_append_cons {log before after : Log} {last o : Occurrence}
    (h : log ++ [last] = before ++ o :: after) :
    (before = log ∧ o = last ∧ after = []) ∨
      ∃ rest, after = rest ++ [last] ∧ log = before ++ o :: rest := by
  rcases List.eq_nil_or_concat after with rfl | ⟨rest, end', rfl⟩
  · obtain ⟨hlog, hlast⟩ := List.append_inj' h rfl
    exact Or.inl ⟨hlog.symm, (List.singleton_inj.mp hlast).symm, rfl⟩
  · have hsplit : log ++ [last] = (before ++ o :: rest) ++ [end'] := by
      simpa only [List.concat_eq_append, List.append_assoc, List.cons_append] using h
    obtain ⟨hlog, hlast⟩ := List.append_inj' hsplit rfl
    rw [List.singleton_inj.mp hlast]
    exact Or.inr ⟨rest, List.concat_eq_append, hlog⟩

theorem not_armed_nil : ¬ Armed [] := by
  rintro ⟨before, o, after, hsplit, -⟩
  simp at hsplit

/-- After one more step a quiet period is on if the step started it, or did not end it. -/
theorem armed_concat (log : Log) (o : Occurrence) :
    Armed (log ++ [o]) ↔ o.Arms ∨ o.job? = none ∧ Armed log := by
  constructor
  · rintro ⟨before, o', after, hsplit, harms, hjobs⟩
    rcases concat_eq_append_cons hsplit with ⟨-, rfl, -⟩ | ⟨rest, rfl, hlog⟩
    · exact Or.inl harms
    · rw [jobs_append, List.append_eq_nil_iff] at hjobs
      refine Or.inr ⟨?_, before, o', rest, hlog, harms, hjobs.1⟩
      simpa using hjobs.2
  · rintro (harms | ⟨hjob, before, o', after, rfl, harms, hjobs⟩)
    · exact ⟨log, o, [], rfl, harms, rfl⟩
    · refine ⟨before, o', after ++ [o], by simp, harms, ?_⟩
      simp [hjobs, hjob]

end Log

namespace Scheduler

/-- The scheduler after its job was taken by the worker. -/
def enqueued (s : Scheduler) : Scheduler :=
  { s with
    worker := { s.worker with queue := s.worker.queue ++ [s.job] }
    deadline := none
    next := s.next + 1
    latest := some s.next
    awaiting := true }

/-- The scheduler after its job was not taken. -/
def spent (s : Scheduler) : Scheduler := { s with deadline := none, next := s.next + 1 }

/-- The next event of a scheduler, as it is handed out and as it is logged: the quiet period has
passed, or a response has arrived. -/
inductive Emits (t : Transformer) (s : Scheduler) : Event → Occurrence → Scheduler → Prop
  | fired {n s'} (h : s.fire? = some (.submitted n, s')) :
      Emits t s (.submitted n) (.submitted true s.job) s'
  | refused {s'} (h : s.fire? = some (.workerClosed, s')) : Emits t s .workerClosed .refused s'
  | received {e s'} (h : s.receive? t = some (e, s')) : Emits t s e (.arrived e) s'

/-- One step of a scheduler. -/
inductive Step (t : Transformer) (s : Scheduler) : Occurrence → Scheduler → Prop
  | edit (text : String) : Step t s (.edited text) (s.edit text)
  | rename (fileName : String) : Step t s (.renamed fileName) (s.rename fileName)
  | setOptions (options : Json.Value) : Step t s (.configured options) (s.setOptions options)
  | advance (milliseconds : Nat) : Step t s (.passed milliseconds) (s.advance milliseconds)
  | compile {n s'} (h : s.compileNow = (.ok n, s')) : Step t s (.submitted false s.job) s'
  | fail {e s'} (h : s.compileNow = (.error e, s')) : Step t s .refused s'
  | event {e o s'} (h : Emits t s e o s') : Step t s o s'

/-- A run from a first state, with its log. -/
inductive Run (t : Transformer) (start : Scheduler) : Log → Scheduler → Prop
  | begin : Run t start [] start
  | next {log s o s'} (run : Run t start log s) (step : Step t s o s') :
      Run t start (log ++ [o]) s'

/-- A submission succeeds exactly on a living worker. -/
theorem compileNow_eq (s : Scheduler) :
    s.compileNow = if s.worker.alive then (.ok s.next, s.enqueued) else (.error .closed, s.spent) := by
  cases h : s.worker.alive <;> simp [compileNow, submit, Worker.submit, job, enqueued, spent, h]

theorem request_compileNow (s : Scheduler) : s.compileNow.2.job.request = s.job.request := by
  rw [compileNow_eq]
  cases s.worker.alive <;> rfl

theorem compileNow_eq_ok {s s' : Scheduler} {n : Nat} (h : s.compileNow = (.ok n, s')) :
    s.worker.alive = true ∧ s' = s.enqueued := by
  rw [compileNow_eq] at h
  cases halive : s.worker.alive with
  | true =>
      rw [halive, if_pos rfl, Prod.mk.injEq] at h
      exact ⟨rfl, h.2.symm⟩
  | false => simp [halive] at h

theorem compileNow_eq_error {s s' : Scheduler} {e : WorkerError}
    (h : s.compileNow = (.error e, s')) : s.worker.alive = false ∧ s' = s.spent := by
  rw [compileNow_eq] at h
  cases halive : s.worker.alive with
  | true => simp [halive] at h
  | false =>
      rw [halive, if_neg Bool.false_ne_true, Prod.mk.injEq] at h
      exact ⟨rfl, h.2.symm⟩

/-- The timer submits only when it is due. -/
theorem fire?_eq_submitted {s s' : Scheduler} {n : Nat}
    (h : s.fire? = some (.submitted n, s')) :
    s.isDue = true ∧ s.worker.alive = true ∧ n = s.next ∧ s' = s.enqueued := by
  rw [fire?, compileNow_eq] at h
  cases hdue : s.isDue <;> cases halive : s.worker.alive <;>
    simp only [hdue, halive, if_true, if_false, Bool.false_eq_true, reduceCtorEq,
      Option.some.injEq, Prod.mk.injEq, Event.submitted.injEq, false_and] at h
  exact ⟨rfl, rfl, h.1.symm, h.2.symm⟩

theorem fire?_eq_workerClosed {s s' : Scheduler} (h : s.fire? = some (.workerClosed, s')) :
    s.worker.alive = false ∧ s' = s.spent := by
  rw [fire?, compileNow_eq] at h
  cases hdue : s.isDue <;> cases halive : s.worker.alive <;>
    simp only [hdue, halive, if_true, if_false, Bool.false_eq_true, reduceCtorEq,
      Option.some.injEq, Prod.mk.injEq, true_and, false_and] at h
  exact ⟨rfl, h.symm⟩

/-- What a response leads to: the outcome of the oldest job is accepted or dropped according to
its number, or the worker is found closed. -/
inductive Receives (t : Transformer) (s : Scheduler) : Event → Scheduler → Prop
  | completed {w : Worker} {j : Job} {o : Outcome} (queue : s.worker.queue = j :: w.queue)
      (answers : Worker.Answers t j o) (alive : w.alive = s.worker.alive)
      (answered : w.answered = s.worker.answered + 1) (latest : s.latest = some j.sequence) :
      Receives t s (.completed o) { s with worker := w, awaiting := false }
  | discarded {w : Worker} {j : Job} (queue : s.worker.queue = j :: w.queue)
      (alive : w.alive = s.worker.alive) (answered : w.answered = s.worker.answered + 1)
      (latest : s.latest ≠ some j.sequence) :
      Receives t s (.discarded j.sequence) { s with worker := w }
  | closed {w : Worker} (queue : w.queue = []) (dead : w.alive = false)
      (answered : w.answered = s.worker.answered)
      (cause : s.worker.queue ≠ [] ∧ (∃ n, t.load n = .breakdown) ∨
        s.worker.queue = [] ∧ s.worker.alive = false) :
      Receives t s .workerClosed { s with worker := w }

theorem receives_of_receive? {t : Transformer} {s s' : Scheduler} {e : Event}
    (h : s.receive? t = some (e, s')) : Receives t s e s' := by
  rw [receive?] at h
  rcases hw : s.worker.receive t with ⟨d, w⟩
  rw [hw] at h
  cases d with
  | waiting => cases h
  | closed =>
      obtain ⟨rfl, rfl⟩ := Prod.mk.inj (Option.some.inj h)
      obtain ⟨hqueue, hdead, hanswered, hcause⟩ := Worker.receive_eq_closed hw
      exact .closed hqueue hdead hanswered hcause
  | outcome o =>
      obtain ⟨j, hqueue, hanswers, halive, hanswered⟩ := Worker.receive_eq_outcome hw
      have hseq := hanswers.sequence_eq
      simp only [accept] at h
      by_cases hlatest : s.latest = some o.sequence
      · rw [if_pos hlatest] at h
        obtain ⟨rfl, rfl⟩ := Prod.mk.inj (Option.some.inj h)
        exact .completed hqueue hanswers halive hanswered (hseq ▸ hlatest)
      · rw [if_neg hlatest] at h
        obtain ⟨rfl, rfl⟩ := Prod.mk.inj (Option.some.inj h)
        rw [hseq] at hlatest ⊢
        exact .discarded hqueue halive hanswered hlatest

/-- The outcome that an event accepts is the one that is logged. -/
theorem Emits.accepted_eq {t : Transformer} {s s' : Scheduler} {e : Event} {o : Occurrence}
    (h : Emits t s e o s') : Log.accepted [o] = e.accepted?.toList := by
  cases h with
  | fired | refused => rfl
  | received => exact Log.accepted_arrived e

/-- Nothing that a scheduler does by itself starts a quiet period. -/
theorem Emits.not_arms {t : Transformer} {s s' : Scheduler} {e : Event} {o : Occurrence}
    (h : Emits t s e o s') : ¬ o.Arms := by
  cases h <;> exact not_false

/-- What each kind of step does. -/
def Does (t : Transformer) (s : Scheduler) : Occurrence → Scheduler → Prop
  | .edited text, s' => s' = s.edit text
  | .renamed fileName, s' => s' = s.rename fileName
  | .configured options, s' => s' = s.setOptions options
  | .passed milliseconds, s' => s' = s.advance milliseconds
  | .submitted byTimer j, s' =>
      s.worker.alive = true ∧ j = s.job ∧ (byTimer = true → s.isDue = true) ∧ s' = s.enqueued
  | .refused, s' => s.worker.alive = false ∧ s' = s.spent
  | .arrived e, s' => Receives t s e s'

/-- A step does what its log entry says. -/
theorem Step.does {t : Transformer} {s s' : Scheduler} {o : Occurrence} (h : Step t s o s') :
    Does t s o s' := by
  cases h with
  | edit | rename | setOptions | advance => rfl
  | compile h =>
      obtain ⟨halive, rfl⟩ := compileNow_eq_ok h
      exact ⟨halive, rfl, fun hf => absurd hf Bool.false_ne_true, rfl⟩
  | fail h => exact compileNow_eq_error h
  | event h =>
      cases h with
      | fired h =>
          obtain ⟨hdue, halive, -, rfl⟩ := fire?_eq_submitted h
          exact ⟨halive, rfl, fun _ => hdue, rfl⟩
      | refused h => exact fire?_eq_workerClosed h
      | received h => exact receives_of_receive? h

/-- A run passes through a state before and a state after each entry of its log. -/
theorem Run.split {t : Transformer} {start s : Scheduler} {before after : Log} {o : Occurrence}
    (run : Run t start (before ++ o :: after) s) :
    ∃ s₁ s₂, Run t start before s₁ ∧ Step t s₁ o s₂ := by
  generalize hlog : before ++ o :: after = log at run
  induction run generalizing after with
  | begin => simp at hlog
  | next run step ih =>
      rcases Log.concat_eq_append_cons hlog.symm with ⟨rfl, rfl, -⟩ | ⟨rest, -, hrest⟩
      · exact ⟨_, _, run, step⟩
      · exact ih hrest.symm

/-- A run ends with the last step of its log. -/
theorem Run.of_concat {t : Transformer} {start s' : Scheduler} {log : Log} {o : Occurrence}
    (run : Run t start (log ++ [o]) s') : ∃ s, Run t start log s ∧ Step t s o s' := by
  generalize hlog : log ++ [o] = whole at run
  cases run with
  | begin => simp at hlog
  | next run step =>
      obtain ⟨rfl, hlast⟩ := List.append_inj' hlog rfl
      obtain rfl := List.singleton_inj.mp hlast
      exact ⟨_, run, step⟩

/-- A run may go on from where another one ends. -/
theorem Run.append {t : Transformer} {start s s' : Scheduler} {log log' : Log}
    (run : Run t start log s) (run' : Run t s log' s') : Run t start (log ++ log') s' := by
  induction run' with
  | begin => rwa [List.append_nil]
  | next run' step ih =>
      rw [← List.append_assoc]
      exact ih.next step

end Scheduler

end Provenance

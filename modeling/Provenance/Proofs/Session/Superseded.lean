import Provenance.Proofs.Session.Coherence
import Provenance.Proofs.Session.Reordering

/-!
# Superseded outcomes

Once a later job was submitted, the outcome of an earlier one may be anything: two sessions that go
through the same and differ in such outcomes only stay the same after every step.

## Implementation notes

A list of stimuli fixes the commands, the clock and the moments at which responses arrive, and
leaves the responses themselves to the transformer. So two transformers lead to two sessions that
can be compared stimulus by stimulus.

An outdated outcome might still change how later jobs are answered, through the transformer that the
worker holds. The first part of `superseded_outcomes` leaves this open and takes the later responses
of both sessions to be the same. The second part shows that an outdated outcome does not reach that
transformer unless it comes of a breakdown.
-/

namespace Provenance.Session

open Scheduler (Ordered)

/-- Something that happens to a session. -/
inductive Stimulus
  | command (c : Command)
  | pass (milliseconds : Nat)
  /-- The quiet period ends if it has passed. -/
  | timer
  /-- The next response is handled if there is one to be waited for. -/
  | response
  /-- A worker whose end was not received yet refuses a submission. -/
  | refusal

/-- The session after a stimulus. -/
def react (t : Transformer) (s : Session) : Stimulus → Session
  | .command c => (s.handleCommand c).2
  | .pass milliseconds => s.advance milliseconds
  | .timer => s.fire.2
  | .response => (s.deliver? t).elim s fun (_, _, s') => s'
  | .refusal => { s with scheduler := s.scheduler.spent }

/-- The session after some stimuli, first the oldest. -/
def reactAll (t : Transformer) (s : Session) (stimuli : List Stimulus) : Session :=
  stimuli.foldl (react t) s

/-- The session with another worker. -/
def withWorker (s : Session) (w : Worker) : Session :=
  { s with scheduler := s.scheduler.withWorker w }

/-- The sessions are the same up to what their workers keep for themselves. -/
structure Alike (s₁ s₂ : Session) : Prop where
  view : s₂.view = s₁.view
  focus : s₂.focus = s₁.focus
  renderer : s₂.renderer = s₁.renderer
  language : s₂.language = s₁.language
  scheduler : s₂.scheduler = s₁.scheduler.withWorker s₂.scheduler.worker
  worker : Worker.Alike s₁.scheduler.worker s₂.scheduler.worker

variable {t t₁ t₂ : Transformer} {s s' s₁ s₂ first : Session} {log : Log} {w : Worker}
variable {settings : Settings} {renderer : Renderer} {text : String} {stimuli : List Stimulus}

theorem alike_withWorker (alike : Worker.Alike s.scheduler.worker w) : Alike s (s.withWorker w) :=
  ⟨rfl, rfl, rfl, rfl, rfl, alike⟩

theorem Alike.eq_withWorker (h : Alike s₁ s₂) : s₂ = s₁.withWorker s₂.scheduler.worker := by
  obtain ⟨view, focus, renderer, language, scheduler, -⟩ := h
  rcases s₂ with ⟨scheduler₂, focus₂, renderer₂, language₂, view₂⟩
  dsimp only at view focus renderer language scheduler
  subst view focus renderer language
  exact congrArg (Session.mk · _ _ _ _) scheduler

/-! ## Stimuli -/

theorem reactAll_concat (t : Transformer) (s : Session) (stimuli : List Stimulus) (x : Stimulus) :
    s.reactAll t (stimuli ++ [x]) = (s.reactAll t stimuli).react t x := by
  rw [reactAll, List.foldl_append]
  rfl

theorem reactAll_take_succ (t : Transformer) (s : Session) (stimuli : List Stimulus) (n : Nat) :
    s.reactAll t (stimuli.take (n + 1)) =
      stimuli[n]?.elim (s.reactAll t (stimuli.take n)) (react t (s.reactAll t (stimuli.take n))) := by
  rw [List.take_add_one]
  cases stimuli[n]? with
  | none => rw [Option.toList_none, List.append_nil, Option.elim_none]
  | some x => exact reactAll_concat t s (stimuli.take n) x

/-- Every step is the reaction to a stimulus. -/
theorem Step.exists_stimulus {added : Log} (h : Step t s added s') :
    ∃ x, s' = s.react t x := by
  cases h with
  | command c => exact ⟨.command c, rfl⟩
  | advance milliseconds => exact ⟨.pass milliseconds, rfl⟩
  | event hemits =>
      cases hemits with
      | fired h | refused h => exact ⟨.timer, by rw [react, fire, h]⟩
      | received h => exact ⟨.response, by rw [react, deliver?, h]; rfl⟩

/-- Stimuli lead wherever a session can get. -/
theorem Course.exists_stimuli (course : Course t first log s) :
    ∃ stimuli, s = first.reactAll t stimuli := by
  induction course with
  | begin => exact ⟨[], rfl⟩
  | next course step ih =>
      obtain ⟨stimuli, rfl⟩ := ih
      obtain ⟨x, rfl⟩ := step.exists_stimulus
      exact ⟨stimuli ++ [x], (reactAll_concat t first stimuli x).symm⟩
  | refused course queued load ih =>
      obtain ⟨stimuli, rfl⟩ := ih
      refine ⟨stimuli ++ [.refusal], ?_⟩
      rw [reactAll_concat]
      rfl

/-- What becomes of a submission. -/
theorem compileNow_eq (s : Session) :
    (s.handleCommand .compileNow).2 = if s.scheduler.worker.alive then
      { s with scheduler := s.scheduler.enqueued }.showCompiling
    else { s with scheduler := s.scheduler.spent } := by
  rw [handleCommand, Scheduler.compileNow_eq]
  cases s.scheduler.worker.alive <;> rfl

/-- The timer does nothing or what an immediate compilation does. -/
theorem fire_eq (s : Session) :
    s.fire.2 = if s.scheduler.isDue then (s.handleCommand .compileNow).2 else s := by
  rw [fire, Scheduler.fire?, handleCommand, Scheduler.compileNow_eq]
  cases s.scheduler.isDue with
  | false => rfl
  | true => cases s.scheduler.worker.alive <;> rfl

theorem ordered_compileNow (h : Ordered s.scheduler) :
    Ordered (s.handleCommand .compileNow).2.scheduler := by
  rw [compileNow_eq]
  cases s.scheduler.worker.alive with
  | true => exact h.enqueued
  | false => exact h.spent

theorem ordered_react (h : Ordered s.scheduler) (x : Stimulus) :
    Ordered (s.react t x).scheduler := by
  cases x with
  | command c =>
      cases c with
      | edit | moveCursor | rename => exact { h with }
      | compileNow => exact ordered_compileNow h
  | pass milliseconds => exact { h with }
  | timer =>
      rw [react, fire_eq]
      cases s.scheduler.isDue with
      | false => exact h
      | true => exact ordered_compileNow h
  | response =>
      rw [react, deliver?]
      cases hreceive : s.scheduler.receive? t with
      | none => exact h
      | some p =>
          change Ordered ({ s with scheduler := p.2 }.handleEvent p.1).2.scheduler
          rw [(handleEvent_frame _ p.1).1]
          exact h.step (.event (.received hreceive))
  | refusal => exact h.spent

theorem ordered_reactAll (h : Ordered s.scheduler) (stimuli : List Stimulus) :
    Ordered (s.reactAll t stimuli).scheduler := by
  induction stimuli generalizing s with
  | nil => exact h
  | cons x stimuli ih => exact ih (ordered_react h x)

theorem ordered_start : Ordered (start settings renderer text).scheduler :=
  { Ordered.begin settings with }

/-! ## Another worker -/

theorem handleEvent_withWorker (s : Session) (w : Worker) (e : Event) :
    (s.withWorker w).handleEvent e = ((s.handleEvent e).1, (s.handleEvent e).2.withWorker w) := by
  cases e with
  | completed o =>
      refine congrArg (Prod.mk _) ?_
      change (s.withWorker w).apply o = (s.apply o).withWorker w
      rw [apply, apply]
      cases o.diagnostic <;> rfl
  | submitted | discarded | workerClosed => rfl

/-- With another worker a response is handled in the same way, whatever the outcomes of an overtaken
job are. -/
theorem deliver?_withWorker (h : Ordered s.scheduler)
    (alike : Worker.Alike s.scheduler.worker w)
    (agree : Worker.Agree t₁ t₂ s.scheduler.worker w) :
    (s.withWorker w).deliver? t₂ =
      (s.deliver? t₁).map fun (e, r, s') => (e, r, s'.withWorker (w.receive t₂).2) := by
  rw [deliver?, deliver?, withWorker, h.receive?_withWorker alike agree, Option.map_map,
    Option.map_map]
  congr 1
  funext p
  exact congrArg (Prod.mk p.1) (handleEvent_withWorker { s with scheduler := p.2 } _ p.1)

/-- The worker that has handed over the response is in the session afterwards. -/
theorem worker_of_deliver? {e : Event} {r : Except WorkerError Unit}
    (h : s.deliver? t = some (e, r, s')) :
    s'.scheduler.worker = (s.scheduler.worker.receive t).2 := by
  rw [deliver?] at h
  cases hreceive : s.scheduler.receive? t with
  | none =>
      rw [hreceive] at h
      cases h
  | some p =>
      rw [hreceive] at h
      obtain rfl : ({ s with scheduler := p.2 }.handleEvent p.1).2 = s' :=
        congrArg (fun d => d.2.2) (Option.some.inj h)
      rw [(handleEvent_frame _ p.1).1]
      exact Scheduler.worker_of_receive? hreceive

theorem alike_compileNow (alike : Worker.Alike s.scheduler.worker w) :
    Alike (s.handleCommand .compileNow).2 ((s.withWorker w).handleCommand .compileNow).2 := by
  rw [compileNow_eq, compileNow_eq]
  change Alike _ (if w.alive then _ else _)
  rw [alike.alive]
  cases s.scheduler.worker.alive with
  | true =>
      refine ⟨rfl, rfl, rfl, rfl, rfl, ?_⟩
      exact ⟨congrArg (· ++ [s.scheduler.job]) alike.queue, alike.alive⟩
  | false => exact alike_withWorker alike

/-- Up to their workers two sessions react in the same way. -/
theorem Alike.react (h : Alike s₁ s₂) (ordered : Ordered s₁.scheduler) (x : Stimulus)
    (agree : x = .response → Worker.Agree t₁ t₂ s₁.scheduler.worker s₂.scheduler.worker) :
    Alike (s₁.react t₁ x) (s₂.react t₂ x) := by
  have alike := h.worker
  have hs := h.eq_withWorker
  generalize s₂.scheduler.worker = w at alike agree hs
  subst hs
  cases x with
  | command c =>
      cases c with
      | edit | moveCursor | rename => exact ⟨rfl, rfl, rfl, rfl, rfl, alike⟩
      | compileNow => exact alike_compileNow alike
  | pass milliseconds => exact ⟨rfl, rfl, rfl, rfl, rfl, alike⟩
  | timer =>
      rw [Session.react, Session.react, fire_eq, fire_eq]
      change Alike _ (if s₁.scheduler.isDue then _ else _)
      cases s₁.scheduler.isDue with
      | false => exact alike_withWorker alike
      | true => exact alike_compileNow alike
  | response =>
      have hagree := agree rfl
      rw [Session.react, Session.react, deliver?_withWorker ordered alike hagree]
      cases hdeliver : s₁.deliver? t₁ with
      | none => exact alike_withWorker alike
      | some d =>
          obtain ⟨e, r, s'⟩ := d
          have halike := alike.receive hagree
          rw [← worker_of_deliver? hdeliver] at halike
          exact alike_withWorker halike
  | refusal => exact ⟨rfl, rfl, rfl, rfl, rfl, alike⟩

/-- A session does not tell transformers apart that fail alike and answer alike where it matters. -/
theorem react_eq (fail : Worker.FailAlike t₁ t₂) (ordered : Ordered s.scheduler) (x : Stimulus)
    (agree : x = .response → Worker.Agree t₁ t₂ s.scheduler.worker s.scheduler.worker) :
    s.react t₂ x = s.react t₁ x := by
  cases x with
  | command | pass | timer | refusal => rfl
  | response =>
      have hdeliver := deliver?_withWorker ordered ⟨rfl, rfl⟩ (agree rfl)
      change s.deliver? t₂ = _ at hdeliver
      rw [react, react, hdeliver]
      cases h : s.deliver? t₁ with
      | none => rfl
      | some d =>
          obtain ⟨e, r, s'⟩ := d
          change s'.withWorker (s.scheduler.worker.receive t₂).2 = s'
          rw [fail.receive_snd, ← worker_of_deliver? h]
          rfl

/-! ## Two sessions -/

/-- Two sessions that begin alike and go through the same stimuli, and that are handed the same
responses up to outcomes of overtaken jobs, have the same view, focus and scheduler after every
step, up to what their workers keep for themselves. Where the two transformers fail alike, it is
enough that the second one would give the same responses in the first session, up to outcomes of
overtaken jobs, and then the workers are the same as well. -/
theorem superseded_outcomes (settings : Settings) (renderer : Renderer) (text : String)
    (t₁ t₂ : Transformer) (stimuli : List Stimulus) :
    let after t n := (start settings renderer text).reactAll t (stimuli.take n)
    ((∀ n, stimuli[n]? = some .response →
        Worker.Agree t₁ t₂ (after t₁ n).scheduler.worker (after t₂ n).scheduler.worker) →
      ∀ n, Alike (after t₁ n) (after t₂ n)) ∧
    (Worker.FailAlike t₁ t₂ →
      (∀ n, stimuli[n]? = some .response →
        Worker.Agree t₁ t₂ (after t₁ n).scheduler.worker (after t₁ n).scheduler.worker) →
      ∀ n, after t₂ n = after t₁ n) := by
  intro after
  have ordered (n : Nat) : Ordered (after t₁ n).scheduler :=
    ordered_reactAll ordered_start (stimuli.take n)
  have hsucc (t : Transformer) (n : Nat) :
      after t (n + 1) = stimuli[n]?.elim (after t n) (react t (after t n)) :=
    reactAll_take_succ t _ stimuli n
  constructor
  · intro agree n
    induction n with
    | zero => exact alike_withWorker ⟨rfl, rfl⟩
    | succ n ih =>
        rw [hsucc, hsucc]
        cases hn : stimuli[n]? with
        | none => exact ih
        | some x => exact ih.react (ordered n) x fun hx => agree n (hx ▸ hn)
  · intro fail agree n
    induction n with
    | zero => rfl
    | succ n ih =>
        rw [hsucc, hsucc, ih]
        cases hn : stimuli[n]? with
        | none => rfl
        | some x => exact react_eq fail (ordered n) x fun hx => agree n (hx ▸ hn)

/-- A job is overtaken by a second one before the responses to both arrive. -/
def overtaking : List Stimulus :=
  [.command .compileNow, .command (.edit "two;"), .pass 1000, .timer, .response, .response]

/-- A transformer that fails once. -/
def failing : Transformer := scripted [.failure "Unexpected token"]

/-- The responses arrive at the end. -/
theorem response_overtaking {P : Nat → Prop} (first : P 4) (second : P 5) (n : Nat)
    (hn : overtaking[n]? = some .response) : P n := by
  match n with
  | 0 | 1 | 2 | 3 => cases hn
  | 4 => exact first
  | 5 => exact second
  | n + 6 => cases hn

theorem superseded_outcomes_overtaking :
    let after t n := (start .default Markup.plain "hello;").reactAll t (overtaking.take n)
    (∀ n, overtaking[n]? = some .response →
      Worker.Agree failing mapping (after failing n).scheduler.worker
        (after mapping n).scheduler.worker) ∧
    Worker.FailAlike failing mapping ∧
    (∀ n, overtaking[n]? = some .response →
      Worker.Agree failing mapping (after failing n).scheduler.worker
        (after failing n).scheduler.worker) ∧
    Alike (after failing 5) (after mapping 5) ∧
    after mapping 6 = after failing 6 ∧
    (after failing 6).view.generatedCode = "two;" := by
  intro after
  have agree : ∀ n, overtaking[n]? = some .response →
      Worker.Agree failing mapping (after failing n).scheduler.worker
        (after mapping n).scheduler.worker :=
    response_overtaking (Or.inr ⟨⟨_, _, _, rfl⟩, ⟨_, rfl⟩, _, rfl⟩) (Or.inl rfl)
  have fail : Worker.FailAlike failing mapping := by
    refine ⟨fun _ => rfl, ?_⟩
    intro n c
    cases n <;> rfl
  have answers : ∀ n, overtaking[n]? = some .response →
      Worker.Agree failing mapping (after failing n).scheduler.worker
        (after failing n).scheduler.worker :=
    response_overtaking (Or.inr ⟨⟨_, _, _, rfl⟩, ⟨_, rfl⟩, _, rfl⟩) (Or.inl rfl)
  obtain ⟨halike, hsame⟩ :=
    superseded_outcomes .default Markup.plain "hello;" failing mapping overtaking
  exact ⟨agree, fail, answers, halike agree 5, hsame fail answers 6, rfl⟩

end Provenance.Session

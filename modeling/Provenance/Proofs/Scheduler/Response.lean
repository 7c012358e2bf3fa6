import Provenance.Proofs.Scheduler.Run

/-!
# Responses at the scheduler

What a response does to a scheduler depends on what the worker hands over and on the latest number.
It replaces the worker and may end the wait for an outcome. Changes that leave all this alone may be
made before a response or after it. An overtaken job, behind which a later one is queued, never has
the latest number, so its outcome is dropped whatever it is.
-/

namespace Provenance.Scheduler

variable {t : Transformer} {f : Scheduler → Scheduler} {s s' : Scheduler} {o : Occurrence}

/-- The scheduler with another worker. -/
def withWorker (s : Scheduler) (w : Worker) : Scheduler := { s with worker := w }

/-- The scheduler when it no longer waits for an outcome. -/
def released (s : Scheduler) : Scheduler := { s with awaiting := false }

/-- The event that a delivery gives, and the scheduler after it but for the worker. -/
def hear? (s : Scheduler) : Delivery → Option (Event × Scheduler)
  | .waiting => none
  | .closed => some (.workerClosed, s)
  | .outcome o =>
    if s.latest = some o.sequence then some (.completed o, s.released)
    else some (.discarded o.sequence, s)

/-- The worker is replaced whatever it hands over. -/
theorem receive?_eq (t : Transformer) (s : Scheduler) :
    s.receive? t = (s.hear? (s.worker.receive t).1).map fun (e, s') =>
      (e, s'.withWorker (s.worker.receive t).2) := by
  rw [receive?]
  rcases s.worker.receive t with ⟨d, w⟩
  cases d with
  | waiting | closed => rfl
  | outcome o =>
      simp only [accept, hear?]
      by_cases hlatest : s.latest = some o.sequence
      · rw [if_pos hlatest, if_pos hlatest]
        rfl
      · rw [if_neg hlatest, if_neg hlatest]
        rfl

/-- A delivery is heard the same way after a change that keeps the latest number and the wait. -/
theorem hear?_comm (hlatest : ∀ s, (f s).latest = s.latest)
    (hreleased : ∀ s : Scheduler, f s.released = (f s).released) (s : Scheduler) (d : Delivery) :
    (f s).hear? d = (s.hear? d).map fun (e, s') => (e, f s') := by
  cases d with
  | waiting | closed => rfl
  | outcome o =>
      rw [hear?, hear?, hlatest, ← hreleased]
      by_cases hcurrent : s.latest = some o.sequence
      · rw [if_pos hcurrent, if_pos hcurrent]
        rfl
      · rw [if_neg hcurrent, if_neg hcurrent]
        rfl

theorem hear?_outdated {o : Outcome} (hlatest : s.latest ≠ some o.sequence) :
    s.hear? (.outcome o) = some (.discarded o.sequence, s) := by
  rw [hear?, if_neg hlatest]

/-- The worker that has handed over the response is in the scheduler afterwards. -/
theorem worker_of_receive? {e : Event} (h : s.receive? t = some (e, s')) :
    s'.worker = (s.worker.receive t).2 := by
  rw [receive?_eq, Option.map_eq_some_iff] at h
  obtain ⟨p, -, hp⟩ := h
  obtain rfl : p.2.withWorker _ = s' := congrArg Prod.snd hp
  rfl

/-! ## Changes in between -/

/-- The change does not concern responses: it keeps what they read and does not read what they
change. -/
structure Unconcerned (f : Scheduler → Scheduler) : Prop where
  latest : ∀ s, (f s).latest = s.latest
  worker : ∀ s, (f s).worker = s.worker
  withWorker : ∀ s w, f (s.withWorker w) = (f s).withWorker w
  released : ∀ s, f s.released = (f s).released

theorem unconcerned_edit (text : String) : Unconcerned (·.edit text) :=
  ⟨fun _ => rfl, fun _ => rfl, fun _ _ => rfl, fun _ => rfl⟩

theorem unconcerned_rename (fileName : String) : Unconcerned (·.rename fileName) :=
  ⟨fun _ => rfl, fun _ => rfl, fun _ _ => rfl, fun _ => rfl⟩

theorem unconcerned_id : Unconcerned id := ⟨fun _ => rfl, fun _ => rfl, fun _ _ => rfl, fun _ => rfl⟩

/-- The next event is the same after such a change, which can be made after the event as well. -/
theorem Unconcerned.receive?_comm (hf : Unconcerned f) (s : Scheduler) :
    (f s).receive? t = (s.receive? t).map fun (e, s') => (e, f s') := by
  rw [receive?_eq, receive?_eq, hf.worker, hear?_comm hf.latest hf.released, Option.map_map,
    Option.map_map]
  congr 1
  funext p
  exact congrArg (Prod.mk p.1) (hf.withWorker p.2 _).symm

/-! ## Overtaken jobs -/

/-- Jobs are queued in the order of their numbers, and the last of them is the latest. -/
structure Ordered (s : Scheduler) : Prop where
  increasing : (s.worker.queue.map Job.sequence).Pairwise (· < ·)
  queued_lt : ∀ j ∈ s.worker.queue, j.sequence < s.next
  latest : ∀ j, s.worker.queue.getLast? = some j → s.latest = some j.sequence

namespace Ordered

theorem begin (settings : Settings) : Ordered (ofSettings settings) := ⟨.nil, nofun, nofun⟩

/-- A refused submission only uses up a number. -/
theorem spent (h : Ordered s) : Ordered s.spent :=
  { h with queued_lt := fun j hj => Nat.lt_succ_of_lt (h.queued_lt j hj) }

/-- A new job has the greatest number and comes last. -/
theorem enqueued (h : Ordered s) : Ordered s.enqueued where
  increasing := by
    change ((s.worker.queue ++ [s.job]).map Job.sequence).Pairwise (· < ·)
    rw [List.map_append, List.pairwise_append]
    refine ⟨h.increasing, List.pairwise_singleton _ _, ?_⟩
    intro n hn m hm
    obtain ⟨j, hj, rfl⟩ := List.mem_map.mp hn
    obtain rfl := List.mem_singleton.mp hm
    exact h.queued_lt j hj
  queued_lt := by
    intro j hj
    rcases List.mem_append.mp hj with hj | hj
    · exact Nat.lt_succ_of_lt (h.queued_lt j hj)
    · rw [List.mem_singleton.mp hj]
      exact Nat.lt_succ_self _
  latest := by
    intro j hj
    obtain rfl : s.job = j := by
      rw [← Option.some_inj, ← hj]
      exact List.getLast?_concat.symm
    rfl

/-- The rest of the queue is in order without the oldest job. -/
theorem answered (h : Ordered s) {w : Worker} {j : Job} {awaiting : Bool}
    (hqueue : s.worker.queue = j :: w.queue) :
    Ordered { s with worker := w, awaiting := awaiting } where
  increasing := by
    have hincreasing := h.increasing
    rw [hqueue] at hincreasing
    exact hincreasing.of_cons
  queued_lt j' hj' := h.queued_lt j' (hqueue ▸ List.mem_cons_of_mem j hj')
  latest := by
    intro j' hj'
    refine h.latest j' ?_
    rw [hqueue, List.getLast?_cons, hj', Option.getD_some]

theorem step (h : Ordered s) (hstep : Step t s o s') : Ordered s' := by
  have hdoes := hstep.does
  cases o with
  | edited | renamed | configured | passed =>
      subst hdoes
      exact { h with }
  | submitted byTimer j =>
      obtain ⟨-, -, -, rfl⟩ := hdoes
      exact h.enqueued
  | refused =>
      obtain ⟨-, rfl⟩ := hdoes
      exact h.spent
  | arrived e =>
      cases hdoes with
      | completed hqueue => exact h.answered hqueue
      | discarded hqueue => exact h.answered hqueue
      | @closed w hqueue =>
          constructor
          · exact hqueue ▸ List.Pairwise.nil
          · exact hqueue ▸ nofun
          · exact hqueue ▸ nofun

/-- A job with another one behind it is not the latest. -/
theorem latest_ne_of_overtaken (h : Ordered s) {j : Job} {rest : List Job}
    (hqueue : s.worker.queue = j :: rest) (hovertaken : s.worker.Overtaken) :
    s.latest ≠ some j.sequence := by
  obtain ⟨_, k, rest', hovertaken⟩ := hovertaken
  obtain ⟨rfl, rfl⟩ := List.cons.inj (hqueue.symm.trans hovertaken)
  have hne := List.cons_ne_nil k rest'
  have hlast : s.worker.queue.getLast? = some ((k :: rest').getLast hne) := by
    rw [hqueue, List.getLast?_cons_cons, List.getLast?_eq_some_getLast hne]
  have hincreasing := h.increasing
  rw [hqueue, List.map_cons, List.pairwise_cons] at hincreasing
  have hlt := hincreasing.1 _ (List.mem_map_of_mem (List.getLast_mem hne))
  rw [h.latest _ hlast]
  exact fun heq => Nat.ne_of_gt hlt (Option.some.inj heq)

end Ordered

/-- With another worker the scheduler gives the same event, whatever the outcomes of an overtaken
job are. -/
theorem Ordered.receive?_withWorker (h : Ordered s) {t₁ t₂ : Transformer} {w : Worker}
    (alike : Worker.Alike s.worker w) (agree : Worker.Agree t₁ t₂ s.worker w) :
    (s.withWorker w).receive? t₂ =
      (s.receive? t₁).map fun (e, s') => (e, s'.withWorker (w.receive t₂).2) := by
  have hhear : s.hear? (w.receive t₂).1 = s.hear? (s.worker.receive t₁).1 := by
    rcases agree with hsame | ⟨hovertaken, ⟨o₁, ho₁⟩, o₂, ho₂⟩
    · rw [hsame]
    · obtain ⟨-, j, hqueue, hseq₁, hseq₂⟩ :=
        alike.of_outcomes (Prod.ext ho₁ rfl) (Prod.ext ho₂ rfl)
      have hlatest := h.latest_ne_of_overtaken hqueue hovertaken
      rw [ho₁, ho₂, hear?_outdated (hseq₂ ▸ hlatest), hear?_outdated (hseq₁ ▸ hlatest), hseq₁, hseq₂]
  have hworker (d : Delivery) : (s.withWorker w).hear? d =
      (s.hear? d).map fun (e, s') => (e, s'.withWorker w) :=
    @hear?_comm (·.withWorker w) (fun _ => rfl) (fun _ => rfl) s d
  rw [receive?_eq, receive?_eq]
  change ((s.withWorker w).hear? (w.receive t₂).1).map _ = _
  rw [hworker, hhear, Option.map_map, Option.map_map]
  rfl

end Provenance.Scheduler

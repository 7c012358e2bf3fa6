import Provenance.Proofs.Scheduler.Accounting

/-!
# Awaited outcomes

The outcome of the latest job is awaited exactly as long as the log has no answer to that job. This
needs no worker that takes every job: a refused submission uses up a number and nothing else.

## Implementation notes

`Tracked` asks less than `Accounted`, which gives the numbers themselves. That all numbers in use
are below the next one is enough to tell a new job from the answers that are already there.
-/

namespace Provenance.Scheduler

open Log

variable {t : Transformer} {log : Log} {s s' : Scheduler} {o : Occurrence}

/-- The scheduler knows the last number, all numbers are below the next one, and what is awaited is
the answer to the last job. -/
structure Tracked (log : Log) (s : Scheduler) : Prop where
  latest : s.latest = ((jobs log).map Job.sequence).getLast?
  queued_lt : ∀ j ∈ s.worker.queue, j.sequence < s.next
  answered_lt : ∀ n ∈ answers log, n < s.next
  awaiting : s.awaiting = true ↔ ∃ n, s.latest = some n ∧ n ∉ answers log

namespace Tracked

/-- A step that submits and answers nothing matters only as far as it drops jobs or numbers. -/
theorem frame (h : Tracked log s) (hjob : o.job? = none) (hanswers : answers [o] = [])
    (hqueue : s'.worker.queue ⊆ s.worker.queue) (hnext : s.next ≤ s'.next)
    (hlatest : s'.latest = s.latest) (hawaiting : s'.awaiting = s.awaiting) :
    Tracked (log ++ [o]) s' where
  latest := by
    rw [hlatest, h.latest]
    simp [hjob]
  queued_lt j hj := Nat.lt_of_lt_of_le (h.queued_lt j (hqueue hj)) hnext
  answered_lt n hn := by
    rw [answers_append, hanswers, List.append_nil] at hn
    exact Nat.lt_of_lt_of_le (h.answered_lt n hn) hnext
  awaiting := by rw [hawaiting, hlatest, answers_append, hanswers, List.append_nil, h.awaiting]

/-- A refused submission only uses up a number. -/
theorem spent (h : Tracked log s) : Tracked (log ++ [.refused]) s.spent :=
  h.frame rfl rfl (List.Subset.refl _) (Nat.le_succ _) rfl rfl

/-- A new job has a number that no answer has. -/
theorem enqueued (h : Tracked log s) (byTimer : Bool) :
    Tracked (log ++ [.submitted byTimer s.job]) s.enqueued := by
  have hanswers : answers (log ++ [.submitted byTimer s.job]) = answers log := by
    rw [answers_append, answers_of_event?_eq_none rfl, List.append_nil]
  constructor
  · rw [jobs_submitted, List.map_append, List.map_singleton, List.getLast?_concat]
    rfl
  · intro j hj
    rcases List.mem_append.mp hj with hj | hj
    · exact Nat.lt_succ_of_lt (h.queued_lt j hj)
    · rw [List.mem_singleton.mp hj]
      exact Nat.lt_succ_self _
  · rw [hanswers]
    exact fun n hn => Nat.lt_succ_of_lt (h.answered_lt n hn)
  · -- The number was not given out before, so nothing can have answered it.
    rw [hanswers]
    exact iff_of_true rfl ⟨s.next, rfl, fun hn => Nat.lt_irrefl _ (h.answered_lt _ hn)⟩

/-- A response leaves its job awaited exactly if it answers another one. -/
theorem responded (h : Tracked log s) {w : Worker} {j : Job} {e : Event} {awaiting : Bool}
    (hqueue : s.worker.queue = j :: w.queue) (he : e.answered? = some j.sequence)
    (hawaiting : awaiting = true ↔ s.latest ≠ some j.sequence ∧ s.awaiting = true) :
    Tracked (log ++ [.arrived e]) { s with worker := w, awaiting := awaiting } := by
  have hanswers : answers (log ++ [.arrived e]) = answers log ++ [j.sequence] := by
    rw [answers_append, answers_arrived, he]
    rfl
  constructor
  · rw [jobs_arrived]
    exact h.latest
  · intro j' hj'
    exact h.queued_lt j' (hqueue ▸ List.mem_cons_of_mem j hj')
  · intro n hn
    rw [hanswers] at hn
    rcases List.mem_append.mp hn with hn | hn
    · exact h.answered_lt n hn
    · rw [List.mem_singleton.mp hn]
      exact h.queued_lt j (hqueue ▸ List.mem_cons_self)
  · rw [hanswers]
    change awaiting = true ↔ ∃ n, s.latest = some n ∧ n ∉ answers log ++ [j.sequence]
    rw [hawaiting, h.awaiting]
    constructor
    · rintro ⟨hne, n, hn, hnotin⟩
      refine ⟨n, hn, ?_⟩
      rw [List.mem_append, List.mem_singleton, not_or]
      exact ⟨hnotin, fun heq => hne (heq ▸ hn)⟩
    · rintro ⟨n, hn, hnotin⟩
      rw [List.mem_append, List.mem_singleton, not_or] at hnotin
      exact ⟨fun heq => hnotin.2 (Option.some.inj (hn.symm.trans heq)), n, hn, hnotin.1⟩

/-- Every step keeps track. -/
theorem step (h : Tracked log s) (hstep : Step t s o s') : Tracked (log ++ [o]) s' := by
  have hdoes := hstep.does
  cases o with
  | edited | renamed | configured | passed =>
      subst hdoes
      exact h.frame rfl rfl (List.Subset.refl _) (Nat.le_refl _) rfl rfl
  | submitted byTimer j =>
      obtain ⟨-, rfl, -, rfl⟩ := hdoes
      exact h.enqueued byTimer
  | refused =>
      obtain ⟨-, rfl⟩ := hdoes
      exact h.spent
  | arrived e =>
      cases hdoes with
      | completed hqueue hanswers halive hanswered hlatest =>
          refine h.responded hqueue (congrArg some hanswers.sequence_eq) ?_
          exact iff_of_false Bool.noConfusion fun hne => hne.1 hlatest
      | discarded hqueue halive hanswered hlatest =>
          refine h.responded hqueue rfl ?_
          exact ⟨fun hawaiting => ⟨hlatest, hawaiting⟩, And.right⟩
      | closed hqueue =>
          refine h.frame rfl rfl ?_ (Nat.le_refl _) rfl rfl
          rw [hqueue]
          exact List.nil_subset _

/-- The latest outcome is awaited exactly if the log has no answer to the last job. -/
theorem awaiting_iff (h : Tracked log s) : s.awaiting = true ↔ Unanswered log := by
  rw [h.awaiting, h.latest, List.getLast?_map]
  constructor
  · rintro ⟨n, hn, hnotin⟩
    obtain ⟨j, hj, rfl⟩ := Option.map_eq_some_iff.mp hn
    exact ⟨j, hj, hnotin⟩
  · rintro ⟨j, hj, hnotin⟩
    exact ⟨j.sequence, by rw [hj, Option.map_some], hnotin⟩

end Tracked

end Provenance.Scheduler

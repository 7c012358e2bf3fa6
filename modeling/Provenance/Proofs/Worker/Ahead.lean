import Provenance.Proofs.Worker.OneByOne

/-!
# Working ahead

A worker may carry out a job long before anybody takes the response. When it does so has no
influence on the responses: those taken so far and those still to come are what the jobs lead to if
they are given one by one (`Ahead.Run.owed`). Only the end of the worker shows early, as it takes no
jobs then.

## Implementation notes

`receive` carries out a job when its response is asked for. An `Ahead` keeps the responses of jobs
that were carried out earlier, and its worker may carry out one more at any time.
-/

namespace Provenance.Worker

variable {t : Transformer} {w w' : Worker} {j : Job} {rest : List Job}

/-- A worker that carries out jobs before it is asked for their responses, and the responses that
are ready. -/
structure Ahead where
  worker : Worker
  ready : List Outcome

namespace Ahead

variable {a a' first : Ahead} {jobs : List Job} {taken : List Outcome}

def fresh : Ahead := ⟨.fresh, []⟩

/-- Somebody submits a job, which a worker that has ended does not take. -/
def offer (a : Ahead) (j : Job) : Ahead := ⟨a.worker.offer j, a.ready⟩

/-- The worker carries out its oldest job. -/
def work (t : Transformer) (a : Ahead) : Ahead :=
  ⟨(a.worker.receive t).2, a.ready ++ (a.worker.receive t).1.outcome?.toList⟩

/-- The outcomes that are still to be taken, and the worker once it has given them. -/
def owed (t : Transformer) (a : Ahead) : List Outcome × Worker :=
  (a.ready ++ (a.worker.owed t).1, (a.worker.owed t).2)

/-- The numbers of the responses that may still come. -/
def numbers (a : Ahead) : List Nat :=
  a.ready.map Outcome.sequence ++ a.worker.queue.map Job.sequence

/-- A job that is submitted adds what the worker makes of it once the others are answered. -/
theorem owed_offer (h : a.worker.Orderly) (t : Transformer) (j : Job) :
    (a.offer j).owed t =
      ((a.owed t).1 ++ ((a.owed t).2.oneByOne t [j]).1, ((a.owed t).2.oneByOne t [j]).2) := by
  rw [owed, offer, Worker.owed_offer h, ← List.append_assoc]
  rfl

/-- It does not matter for what is owed when the worker works. -/
theorem owed_work (h : a.worker.Orderly) : (a.work t).owed t = a.owed t := by
  rw [owed, owed, owed_receive h, work]
  simp only [List.append_assoc]

/-- Without jobs only what is ready is owed. -/
theorem owed_of_nil (t : Transformer) (hqueue : a.worker.queue = []) :
    a.owed t = (a.ready, a.worker) := by
  rw [owed, Worker.owed_of_nil t hqueue, List.append_nil]

/-- A job that is carried out keeps its number. If the worker ends over it, the numbers of the jobs
that are left are lost. -/
theorem numbers_work (t : Transformer) (a : Ahead) :
    (a.work t).numbers = a.numbers ∨
      (a.work t).worker.alive = false ∧ (a.work t).numbers <+: a.numbers := by
  cases hqueue : a.worker.queue with
  | nil =>
      obtain ⟨hsame, hnone⟩ := receive_of_nil t hqueue
      refine Or.inl ?_
      simp [work, numbers, hsame, hnone]
  | cons j rest =>
      rcases receive_cases t hqueue with
        ⟨o, w', hreceive, hsequence, hleft, -⟩ | ⟨w', hreceive, hleft, hdead, -⟩
      · refine Or.inl ?_
        simp [work, numbers, hreceive, hleft, hqueue, hsequence, Delivery.outcome?]
      · refine Or.inr ⟨by simpa [work, hreceive] using hdead, ?_⟩
        simp [work, numbers, hreceive, hleft, Delivery.outcome?]

theorem isPrefix_numbers_work (t : Transformer) (a : Ahead) : (a.work t).numbers <+: a.numbers := by
  rcases a.numbers_work t with hsame | ⟨-, hinitial⟩
  · exact hsame ▸ List.prefix_refl _
  · exact hinitial

/-- The numbers of the outcomes that are owed are among those that may still come. -/
theorem sequence_mem_numbers {o : Outcome} (h : o ∈ (a.owed t).1) : o.sequence ∈ a.numbers := by
  rcases List.mem_append.mp h with hready | howed
  · exact List.mem_append_left _ (List.mem_map_of_mem hready)
  · exact List.mem_append_right _
      ((afterwards_owed t a.worker).sequences.subset (List.mem_map_of_mem howed))

/-! ## Runs -/

/-- What leads from the first state to another: jobs are submitted, responses that are ready are
taken in their order, and the worker may work at any time. -/
inductive Run (t : Transformer) (first : Ahead) : List Job → List Outcome → Ahead → Prop
  | begin : Run t first [] [] first
  | submit {jobs : List Job} {taken : List Outcome} {a : Ahead} (run : Run t first jobs taken a)
      (j : Job) : Run t first (jobs ++ [j]) taken (a.offer j)
  | work {jobs : List Job} {taken : List Outcome} {a : Ahead} (run : Run t first jobs taken a) :
      Run t first jobs taken (a.work t)
  | take {jobs : List Job} {taken : List Outcome} {w : Worker} {o : Outcome} {ready : List Outcome}
      (run : Run t first jobs taken ⟨w, o :: ready⟩) : Run t first jobs (taken ++ [o]) ⟨w, ready⟩

namespace Run

theorem submits (run : Run t first jobs taken a) (more : List Job) :
    Run t first (jobs ++ more) taken (more.foldl offer a) := by
  induction more generalizing jobs a with
  | nil => exact (List.append_nil jobs).symm ▸ run
  | cons j more ih =>
      rw [List.append_cons]
      exact ih (run.submit j)

theorem works (run : Run t first jobs taken a) (count : Nat) :
    Run t first jobs taken ((Ahead.work t)^[count] a) := by
  induction count generalizing a with
  | zero => exact run
  | succ count ih => exact ih run.work

theorem orderly (run : Run t first jobs taken a) (h : first.worker.Orderly) :
    a.worker.Orderly := by
  induction run with
  | begin => exact h
  | submit run j ih => exact ih.offer j
  | work run ih => exact ih.receive t
  | take run ih => exact ih

/-- The responses that were taken and those that are still owed are the ones owed at first and those
to the jobs submitted since, as if these had been given one by one. -/
theorem owed (run : Run t first jobs taken a) (h : first.worker.Orderly) :
    taken ++ (a.owed t).1 = (first.owed t).1 ++ ((first.owed t).2.oneByOne t jobs).1 ∧
      (a.owed t).2 = ((first.owed t).2.oneByOne t jobs).2 := by
  induction run with
  | begin => exact ⟨(List.append_nil _).symm, rfl⟩
  | submit run j ih =>
      obtain ⟨htaken, hworker⟩ := ih
      rw [owed_offer (run.orderly h), oneByOne_append, ← hworker]
      refine ⟨?_, rfl⟩
      rw [← List.append_assoc, ← List.append_assoc, htaken]
  | work run ih =>
      rw [owed_work (run.orderly h)]
      exact ih
  | take run ih =>
      obtain ⟨htaken, hworker⟩ := ih
      refine ⟨?_, hworker⟩
      rw [← htaken, List.append_assoc]
      rfl

theorem owed_fresh (run : Run t fresh jobs taken a) :
    taken ++ (a.owed t).1 = (Worker.fresh.oneByOne t jobs).1 ∧
      (a.owed t).2 = (Worker.fresh.oneByOne t jobs).2 := by
  rw [← List.nil_append (Worker.fresh.oneByOne t jobs).1]
  exact run.owed (orderly_of_queue rfl)

end Run

end Ahead

/-! ## The end of a worker -/

/-- A worker over whose attempts to load none broke down ends over a job exactly if one does. -/
theorem TakesUp.ended_iff {d : Delivery} {x : Treatment} (h : TakesUp t w j rest d x w')
    (halive : w.alive = true) (before : ¬ ∃ n < w.loads, t.load n = .breakdown) :
    w'.alive = false ↔ ∃ n < w'.loads, t.load n = .breakdown := by
  have hlives : w.alive ≠ false := Bool.eq_false_iff.not.mpr (not_not_intro halive)
  have hnext : (∃ n < w.loads + 1, t.load n = .breakdown) ↔ t.load w.loads = .breakdown := by
    rw [Nat.exists_lt_succ_right, or_iff_right before]
  cases h with
  | left => exact iff_of_false hlives before
  | ready hunloaded hload | failed hunloaded hload =>
      refine iff_of_false hlives ?_
      intro hbroke
      have hbreakdown := hnext.mp hbroke
      rw [hload] at hbreakdown
      cases hbreakdown
  | broken hunloaded hload => exact iff_of_true rfl (hnext.mpr hload)

/-- A worker has ended exactly if loading broke down, and has no jobs then. -/
structure Sound (t : Transformer) (w : Worker) : Prop where
  orderly : w.Orderly
  ended_iff : w.alive = false ↔ ∃ n < w.loads, t.load n = .breakdown

namespace Sound

theorem fresh (t : Transformer) : Sound t .fresh := ⟨fun _ => rfl, iff_of_false nofun nofun⟩

theorem offer (h : Sound t w) (j : Job) : Sound t (w.offer j) where
  orderly := h.orderly.offer j
  ended_iff := by
    obtain ⟨halive, -, hloads, -⟩ := offer_frame w j
    rw [halive, hloads]
    exact h.ended_iff

theorem receive (h : Sound t w) : Sound t (w.receive t).2 where
  orderly := h.orderly.receive t
  ended_iff := by
    cases hqueue : w.queue with
    | nil =>
        rw [(receive_of_nil t hqueue).1]
        exact h.ended_iff
    | cons j rest =>
        have halive := h.orderly.alive_of_queue hqueue
        have hbefore : ¬ ∃ n < w.loads, t.load n = .breakdown := by
          rw [← h.ended_iff, halive]
          exact Bool.true_eq_false.mp
        exact (takesUp t hqueue).ended_iff halive hbefore

theorem oneByOne (h : Sound t w) (jobs : List Job) : Sound t (w.oneByOne t jobs).2 := by
  induction jobs generalizing w with
  | nil => exact h
  | cons j jobs ih => exact ih (h.offer j).receive

end Sound

end Provenance.Worker

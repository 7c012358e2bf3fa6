import Provenance.Proofs.Worker.Protocol

/-!
# What a worker owes

Jobs may be given to a worker long before it is asked for their responses. It answers them as if
each had been given only after the response to the one before. So the outcomes that a worker still
owes are told from the worker alone (`Worker.owed`): a job that is given adds at most its own
outcome at the end, and an outcome that is taken is the first of those owed.

## Implementation notes

`oneByOne` goes on after the end of the worker, which then takes no job and gives no response. So it
has one equation for a job and needs no case for the job over which the worker ends.
-/

namespace Provenance.Worker

variable {t : Transformer} {w w' : Worker} {j : Job} {rest : List Job}

/-- The outcomes of jobs that are given one by one, each after the response to the one before, and
the worker afterwards. -/
def oneByOne (t : Transformer) (w : Worker) : List Job → List Outcome × Worker
  | [] => ([], w)
  | j :: jobs =>
    let answer := (w.offer j).receive t
    let later := answer.2.oneByOne t jobs
    (answer.1.outcome?.toList ++ later.1, later.2)

/-- The worker with nothing to do. -/
def idle (w : Worker) : Worker := { w with queue := [] }

/-- The outcomes that the worker still owes, and the worker once it has given them. -/
def owed (t : Transformer) (w : Worker) : List Outcome × Worker := w.idle.oneByOne t w.queue

theorem idle_of_queue (h : w.queue = []) : w.idle = w := by
  rw [idle, ← h]

/-- Jobs that are given one by one in two parts are given one by one. -/
theorem oneByOne_append (t : Transformer) (w : Worker) (jobs jobs' : List Job) :
    w.oneByOne t (jobs ++ jobs') =
      ((w.oneByOne t jobs).1 ++ ((w.oneByOne t jobs).2.oneByOne t jobs').1,
        ((w.oneByOne t jobs).2.oneByOne t jobs').2) := by
  induction jobs generalizing w with
  | nil => rfl
  | cons j jobs ih => simp only [List.cons_append, oneByOne, ih, List.append_assoc]

theorem oneByOne_singleton (t : Transformer) (w : Worker) (j : Job) :
    w.oneByOne t [j] =
      (((w.offer j).receive t).1.outcome?.toList, ((w.offer j).receive t).2) := by
  simp [oneByOne]

/-- A worker that has ended takes no job and gives no response. -/
theorem oneByOne_of_dead (t : Transformer) (halive : w.alive = false) (hqueue : w.queue = [])
    (jobs : List Job) : w.oneByOne t jobs = ([], w) := by
  induction jobs with
  | nil => rfl
  | cons j jobs ih =>
      obtain ⟨hsame, hnone⟩ := receive_of_nil t hqueue
      simp [oneByOne, offer_of_dead halive, hsame, hnone, ih]

/-! ## Taking up one job -/

/-- The oldest job is answered under its number and leaves the queue, or the worker ends. -/
theorem receive_cases (t : Transformer) (hqueue : w.queue = j :: rest) :
    (∃ o w', w.receive t = (.outcome o, w') ∧ o.sequence = j.sequence ∧ w'.queue = rest ∧
        w'.alive = w.alive ∧ w'.answered = w.answered + 1) ∨
      ∃ w', w.receive t = (.closed, w') ∧ w'.queue = [] ∧ w'.alive = false ∧
        w'.answered = w.answered := by
  have hcarry : w.receive t = { w with queue := rest }.carryOut t j := by rw [receive, hqueue]
  rw [hcarry]
  rcases carryOut_spec t { w with queue := rest } j with
    ⟨o, ho, hsequence, hleft, halive, hanswered⟩ | ⟨hclosed, hleft, halive, hanswered, -⟩
  · exact Or.inl ⟨o, _, Prod.ext ho rfl, hsequence, hleft, halive, hanswered⟩
  · exact Or.inr ⟨_, Prod.ext hclosed rfl, hleft, halive, hanswered⟩

/-- The queue has no part in how a job is carried out. -/
theorem carryOut_idle (t : Transformer) (w : Worker) (j : Job) :
    w.idle.carryOut t j = ((w.carryOut t j).1, (w.carryOut t j).2.idle) := by
  cases hloaded : w.loaded with
  | true => simp [carryOut, idle, hloaded, call, answer, record]
  | false =>
      cases hload : t.load w.loads <;>
        simp [carryOut, idle, hloaded, hload, call, answer, record, die]

/-- A worker makes of a job without others what it makes of it as the oldest of many. -/
theorem receive_offer_idle (halive : w.alive = true) (hqueue : w.queue = j :: rest) :
    (w.idle.offer j).receive t = ((w.receive t).1, (w.receive t).2.idle) := by
  have hreceive : w.receive t = { w with queue := rest }.carryOut t j := by rw [receive, hqueue]
  rw [offer_of_alive (w := w.idle) halive, hreceive]
  exact carryOut_idle t { w with queue := rest } j

/-! ## What is owed -/

/-- A worker that has ended has no jobs left. -/
def Orderly (w : Worker) : Prop := w.alive = false → w.queue = []

namespace Orderly

theorem alive_of_queue (h : w.Orderly) (hqueue : w.queue = j :: rest) : w.alive = true := by
  by_contra hdead
  have hempty := h (Bool.eq_false_iff.mpr hdead)
  rw [hqueue] at hempty
  cases hempty

theorem offer (h : w.Orderly) (j : Job) : (w.offer j).Orderly := by
  intro hdead
  have halive : w.alive = false := (offer_frame w j).1 ▸ hdead
  rw [offer_of_dead halive]
  exact h halive

theorem receive (h : w.Orderly) (t : Transformer) : (w.receive t).2.Orderly := by
  intro hdead
  cases hqueue : w.queue with
  | nil =>
      rw [(receive_of_nil t hqueue).1]
      exact hqueue
  | cons j rest =>
      rcases receive_cases t hqueue with
        ⟨o, w', hreceive, -, -, halive, -⟩ | ⟨w', hreceive, hleft, -⟩
      · rw [hreceive, halive, h.alive_of_queue hqueue] at hdead
        cases hdead
      · rw [hreceive]
        exact hleft

end Orderly

theorem orderly_of_queue (h : w.queue = []) : w.Orderly := fun _ => h

/-- Nothing is owed without jobs. -/
theorem owed_of_nil (t : Transformer) (h : w.queue = []) : w.owed t = ([], w) := by
  rw [owed, h, idle_of_queue h]
  rfl

/-- What is taken is the first that was owed. -/
theorem owed_receive (h : w.Orderly) :
    w.owed t =
      ((w.receive t).1.outcome?.toList ++ ((w.receive t).2.owed t).1, ((w.receive t).2.owed t).2) := by
  cases hqueue : w.queue with
  | nil =>
      obtain ⟨hsame, hnone⟩ := receive_of_nil t hqueue
      simp [hsame, hnone]
  | cons j rest =>
      have halive := h.alive_of_queue hqueue
      have hleft : (w.receive t).2.idle.oneByOne t rest = (w.receive t).2.owed t := by
        rcases receive_cases t hqueue with
          ⟨o, w', hreceive, -, hleft, -⟩ | ⟨w', hreceive, hleft, hdead, -⟩
        · rw [hreceive, owed, hleft]
        · rw [hreceive]
          rw [idle_of_queue hleft, oneByOne_of_dead t hdead hleft, owed_of_nil t hleft]
      rw [owed, hqueue, oneByOne, receive_offer_idle halive hqueue, hleft]

/-- A job that is given adds what the worker makes of it once the others are answered. -/
theorem owed_offer (h : w.Orderly) (t : Transformer) (j : Job) :
    (w.offer j).owed t =
      ((w.owed t).1 ++ ((w.owed t).2.oneByOne t [j]).1, ((w.owed t).2.oneByOne t [j]).2) := by
  cases halive : w.alive with
  | true =>
      rw [offer_of_alive halive]
      exact oneByOne_append t w.idle w.queue [j]
  | false =>
      have hqueue := h halive
      rw [offer_of_dead halive, owed_of_nil t hqueue, oneByOne_of_dead t halive hqueue]
      rfl

/-! ## The worker afterwards -/

/-- What the outcomes of jobs given one by one tell of the worker afterwards: it has no jobs left
and, unless it has ended, answered all of them in their order. -/
structure Afterwards (jobs : List Job) (given : List Outcome) (last : Worker) : Prop where
  queue : last.queue = []
  sequences : given.map Outcome.sequence <+: jobs.map Job.sequence
  alive : last.alive = true → given.map Outcome.sequence = jobs.map Job.sequence

theorem afterwards_oneByOne (t : Transformer) (hqueue : w.queue = []) (jobs : List Job) :
    Afterwards jobs (w.oneByOne t jobs).1 (w.oneByOne t jobs).2 := by
  induction jobs generalizing w with
  | nil => exact ⟨hqueue, List.prefix_refl _, fun _ => rfl⟩
  | cons j jobs ih =>
      cases halive : w.alive with
      | false =>
          rw [oneByOne_of_dead t halive hqueue]
          exact ⟨hqueue, List.nil_prefix, fun h => absurd (halive.symm.trans h) Bool.false_ne_true⟩
      | true =>
          have hoffer : (w.offer j).queue = [j] := by rw [offer_of_alive halive, hqueue]; rfl
          rcases receive_cases t hoffer with
            ⟨o, w', hreceive, hsequence, hleft, -⟩ | ⟨w', hreceive, hleft, hdead, -⟩
          · have hlater := ih hleft
            rw [oneByOne, hreceive]
            constructor
            · exact hlater.queue
            · change o.sequence :: (w'.oneByOne t jobs).1.map Outcome.sequence <+: _
              rw [hsequence, List.map_cons]
              exact (List.prefix_cons_inj _).mpr hlater.sequences
            · intro hlast
              change o.sequence :: (w'.oneByOne t jobs).1.map Outcome.sequence = _
              rw [hsequence, List.map_cons, hlater.alive hlast]
          · rw [oneByOne, hreceive]
            dsimp only
            rw [oneByOne_of_dead t hdead hleft]
            exact ⟨hleft, List.nil_prefix,
              fun h => absurd (hdead.symm.trans h) Bool.false_ne_true⟩

theorem afterwards_owed (t : Transformer) (w : Worker) :
    Afterwards w.queue (w.owed t).1 (w.owed t).2 :=
  afterwards_oneByOne t rfl w.queue

end Provenance.Worker

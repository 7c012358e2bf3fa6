import Provenance.Worker

/-!
# Deliveries of the worker

The worker hands over the outcome of its oldest job, under the number of that job, and leaves the
rest of the queue as it is. The one exception is a breakdown while loading, which ends the worker
and empties the queue. What the outcome is matters to the worker only as far as the transformer
broke down over the job.
-/

namespace Provenance.Worker

variable {t : Transformer} {w w' : Worker} {j : Job}

/-- The outcome is what a worker, in some state, makes of the job. -/
def Answers (t : Transformer) (j : Job) (o : Outcome) : Prop :=
  ∃ w : Worker, (w.carryOut t j).1 = .outcome o

/-- What carrying out a job leads to: an answer, or the end of the worker. -/
theorem carryOut_spec (t : Transformer) (w : Worker) (j : Job) :
    (∃ o, (w.carryOut t j).1 = .outcome o ∧ o.sequence = j.sequence ∧
        (w.carryOut t j).2.queue = w.queue ∧ (w.carryOut t j).2.alive = w.alive ∧
        (w.carryOut t j).2.answered = w.answered + 1) ∨
      (w.carryOut t j).1 = .closed ∧ (w.carryOut t j).2.queue = [] ∧
        (w.carryOut t j).2.alive = false ∧ (w.carryOut t j).2.answered = w.answered ∧
        ∃ n, t.load n = .breakdown := by
  rw [carryOut]
  by_cases hloaded : w.loaded = true
  · rw [if_pos hloaded]
    exact Or.inl ⟨_, rfl, rfl, rfl, rfl, rfl⟩
  · rw [if_neg hloaded]
    cases hload : t.load w.loads with
    | ready => exact Or.inl ⟨_, rfl, rfl, rfl, rfl, rfl⟩
    | failure message => exact Or.inl ⟨_, rfl, rfl, rfl, rfl, rfl⟩
    | breakdown => exact Or.inr ⟨rfl, rfl, rfl, rfl, w.loads, hload⟩

theorem Answers.sequence_eq {o : Outcome} (h : Answers t j o) : o.sequence = j.sequence := by
  obtain ⟨w, hw⟩ := h
  rcases carryOut_spec t w j with ⟨o', ho', hseq, -⟩ | ⟨hclosed, -⟩
  · obtain rfl : o' = o := Delivery.outcome.inj (ho'.symm.trans hw)
    exact hseq
  · rw [hclosed] at hw
    cases hw

/-- An outcome that is handed over answers the oldest job, which leaves the queue. -/
theorem receive_eq_outcome {o : Outcome} (h : w.receive t = (.outcome o, w')) :
    ∃ j, w.queue = j :: w'.queue ∧ Answers t j o ∧ w'.alive = w.alive ∧
      w'.answered = w.answered + 1 := by
  rw [receive] at h
  cases hq : w.queue with
  | nil =>
      rw [hq] at h
      by_cases ha : w.alive = true <;> simp [ha] at h
  | cons j rest =>
      rw [hq] at h
      dsimp only at h
      have hanswers : Answers t j o := ⟨_, congrArg Prod.fst h⟩
      rcases carryOut_spec t { w with queue := rest } j with
        ⟨o', -, -, hqueue, halive, hanswered⟩ | ⟨hclosed, -⟩
      · rw [h] at hqueue halive hanswered
        exact ⟨j, by rw [hqueue], hanswers, halive, hanswered⟩
      · rw [h] at hclosed
        cases hclosed

/-- A worker found closed has nothing in its queue; it broke down over a job or was dead. -/
theorem receive_eq_closed (h : w.receive t = (.closed, w')) :
    w'.queue = [] ∧ w'.alive = false ∧ w'.answered = w.answered ∧
      (w.queue ≠ [] ∧ (∃ n, t.load n = .breakdown) ∨ w.queue = [] ∧ w.alive = false) := by
  rw [receive] at h
  cases hq : w.queue with
  | nil =>
      rw [hq] at h
      by_cases ha : w.alive = true
      · simp [ha] at h
      · obtain rfl : w = w' := congrArg Prod.snd h
        have hdead := Bool.eq_false_iff.mpr ha
        exact ⟨hq, hdead, rfl, Or.inr ⟨rfl, hdead⟩⟩
  | cons j rest =>
      rw [hq] at h
      dsimp only at h
      rcases carryOut_spec t { w with queue := rest } j with
        ⟨o, ho, -⟩ | ⟨-, hqueue, halive, hanswered, hload⟩
      · rw [h] at ho
        cases ho
      · rw [h] at hqueue halive hanswered
        exact ⟨hqueue, halive, hanswered, Or.inl ⟨List.cons_ne_nil _ _, hload⟩⟩

/-- The workers have the same jobs before them, and both are alive or both are dead. -/
structure Alike (w₁ w₂ : Worker) : Prop where
  queue : w₂.queue = w₁.queue
  alive : w₂.alive = w₁.alive

/-- A later job was submitted than the one that is answered next. -/
def Overtaken (w : Worker) : Prop := ∃ j next rest, w.queue = j :: next :: rest

/-- What the workers hand over next is the same, or it is two outcomes of an overtaken job. -/
def Agree (t₁ t₂ : Transformer) (w₁ w₂ : Worker) : Prop :=
  (w₂.receive t₂).1 = (w₁.receive t₁).1 ∨
    w₁.Overtaken ∧ (∃ o, (w₁.receive t₁).1 = .outcome o) ∧ ∃ o, (w₂.receive t₂).1 = .outcome o

/-- The transformers are loaded with the same result and break down over the same calls. What they
answer may differ. -/
structure FailAlike (t₁ t₂ : Transformer) : Prop where
  load : ∀ n, t₂.load n = t₁.load n
  survives : ∀ n c, (t₂.reply n c).survives = (t₁.reply n c).survives

theorem receive_eq_waiting (h : w.receive t = (.waiting, w')) : w' = w := by
  rw [receive] at h
  cases hq : w.queue with
  | nil =>
      rw [hq] at h
      exact (congrArg Prod.snd h).symm
  | cons j rest =>
      rw [hq] at h
      dsimp only at h
      rcases carryOut_spec t { w with queue := rest } j with ⟨o, ho, -⟩ | ⟨hclosed, -⟩
      · rw [h] at ho
        cases ho
      · rw [h] at hclosed
        cases hclosed

variable {t₁ t₂ : Transformer} {w₁ w₂ : Worker}

/-- Workers that hand over outcomes do so for the same job, and the rest of the queue stays. -/
theorem Alike.of_outcomes (h : Alike w₁ w₂) {o₁ o₂ : Outcome} {w₁' w₂' : Worker}
    (h₁ : w₁.receive t₁ = (.outcome o₁, w₁')) (h₂ : w₂.receive t₂ = (.outcome o₂, w₂')) :
    Alike w₁' w₂' ∧ ∃ j, w₁.queue = j :: w₁'.queue ∧ o₁.sequence = j.sequence ∧
      o₂.sequence = j.sequence := by
  obtain ⟨j₁, hqueue₁, hanswers₁, halive₁, -⟩ := receive_eq_outcome h₁
  obtain ⟨j₂, hqueue₂, hanswers₂, halive₂, -⟩ := receive_eq_outcome h₂
  obtain ⟨hjob, hrest⟩ := List.cons.inj (hqueue₂.symm.trans (h.queue.trans hqueue₁))
  refine ⟨⟨hrest, ?_⟩, j₁, hqueue₁, hanswers₁.sequence_eq, hjob ▸ hanswers₂.sequence_eq⟩
  rw [halive₂, h.alive, halive₁]

/-- Whatever the outcomes are, they leave the same jobs behind. -/
theorem Alike.receive (h : Alike w₁ w₂) (agree : Agree t₁ t₂ w₁ w₂) :
    Alike (w₁.receive t₁).2 (w₂.receive t₂).2 := by
  rcases h₁ : w₁.receive t₁ with ⟨d₁, w₁'⟩
  rcases h₂ : w₂.receive t₂ with ⟨d₂, w₂'⟩
  rw [Agree, h₁, h₂] at agree
  rcases agree with hsame | ⟨-, ⟨o₁, ho₁⟩, o₂, ho₂⟩
  · obtain rfl : d₂ = d₁ := hsame
    cases d₂ with
    | waiting =>
        rw [receive_eq_waiting h₁, receive_eq_waiting h₂]
        exact h
    | outcome o => exact (h.of_outcomes h₁ h₂).1
    | closed =>
        obtain ⟨hqueue₁, hdead₁, -⟩ := receive_eq_closed h₁
        obtain ⟨hqueue₂, hdead₂, -⟩ := receive_eq_closed h₂
        exact ⟨hqueue₂.trans hqueue₁.symm, hdead₂.trans hdead₁.symm⟩
  · obtain rfl : d₁ = .outcome o₁ := ho₁
    obtain rfl : d₂ = .outcome o₂ := ho₂
    exact (h.of_outcomes h₁ h₂).1

/-- Apart from breakdowns the worker is left the same whatever the answer is. -/
theorem FailAlike.carryOut_snd (h : FailAlike t₁ t₂) (w : Worker) (j : Job) :
    (w.carryOut t₂ j).2 = (w.carryOut t₁ j).2 := by
  have hcall (w : Worker) : (w.call t₂ j).2 = (w.call t₁ j).2 := by
    rw [call, call, h.survives]
    rfl
  rw [carryOut, carryOut, h.load]
  by_cases hloaded : w.loaded = true
  · rw [if_pos hloaded, if_pos hloaded, hcall]
  · rw [if_neg hloaded, if_neg hloaded]
    cases t₁.load w.loads with
    | ready => exact hcall _
    | failure message => rfl
    | breakdown => rfl

theorem FailAlike.receive_snd (h : FailAlike t₁ t₂) (w : Worker) :
    (w.receive t₂).2 = (w.receive t₁).2 := by
  rw [Worker.receive, Worker.receive]
  cases w.queue with
  | nil => rfl
  | cons j rest => exact h.carryOut_snd _ j

end Provenance.Worker

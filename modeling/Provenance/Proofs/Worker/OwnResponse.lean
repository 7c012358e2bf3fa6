import Provenance.Proofs.Worker.Ahead

/-!
# Waiting for one's own response

A compilation submits a job and takes responses until one has the number of that job. If no job
whose response is still to come has that number, it ends with the response that the worker gives to
this job once the earlier ones are answered, and it ends with an error exactly if the worker does
not live to give it (`Worker.compile_own_response`). It has taken the responses to all earlier jobs
by then, unless the worker had ended before the job could be submitted. In that case it takes none,
and those that are ready can still be taken.

## Implementation notes

`Waits` lets the worker work at any time while somebody waits. Waiting as `receiveUntil` does it is
one of these ways, so what holds of all of them is proved once, for `Waits`. What a compilation does
is a run (`Compiles.run`), so what it takes and leaves follows from what a run takes and leaves.
-/

namespace Provenance.Worker

variable {t : Transformer} {w w' : Worker} {j : Job} {n : Nat} {a a' first : Ahead}
  {jobs : List Job} {taken skipped : List Outcome} {r : Except WorkerError Outcome}

/-- Somebody waits for the response with the given number: the worker may work at any time, and the
responses that are ready are taken in their order. Those with other numbers are skipped. -/
inductive Waits (t : Transformer) (n : Nat) :
    Ahead → List Outcome → Except WorkerError Outcome → Ahead → Prop
  | work {a a' : Ahead} {skipped : List Outcome} {r : Except WorkerError Outcome}
      (rest : Waits t n (a.work t) skipped r a') : Waits t n a skipped r a'
  | own {w : Worker} {o : Outcome} {ready : List Outcome} (own : o.sequence = n) :
      Waits t n ⟨w, o :: ready⟩ [] (.ok o) ⟨w, ready⟩
  | skip {w : Worker} {o : Outcome} {ready skipped : List Outcome} {a' : Ahead}
      {r : Except WorkerError Outcome} (other : o.sequence ≠ n)
      (rest : Waits t n ⟨w, ready⟩ skipped r a') : Waits t n ⟨w, o :: ready⟩ (o :: skipped) r a'
  | closed {w : Worker} (ended : w.alive = false) :
      Waits t n ⟨w, []⟩ [] (.error .closed) ⟨w, []⟩

/-- A job is submitted and its response waited for, unless the worker takes no jobs. -/
inductive Compiles (t : Transformer) (j : Job) :
    Ahead → List Outcome → Except WorkerError Outcome → Ahead → Prop
  | refused {a : Ahead} {e : WorkerError} (submit : a.worker.submit j = .error e) :
      Compiles t j a [] (.error e) a
  | submitted {a a' : Ahead} {w : Worker} {skipped : List Outcome} {r : Except WorkerError Outcome}
      (submit : a.worker.submit j = .ok w) (waits : Waits t j.sequence ⟨w, a.ready⟩ skipped r a') :
      Compiles t j a skipped r a'

theorem submit_eq_ok (h : w.submit j = .ok w') : w.alive = true ∧ w' = w.offer j := by
  have halive : w.alive = true := by
    by_contra hdead
    rw [submit, if_neg hdead] at h
    cases h
  refine ⟨halive, ?_⟩
  rw [offer, h]
  rfl

theorem submit_eq_error {e : WorkerError} (h : w.submit j = .error e) : w.alive = false := by
  by_contra halive
  rw [submit, if_pos (Bool.not_eq_false _ |>.mp halive)] at h
  cases h

namespace Waits

/-- Waiting is a run that goes on from any other. -/
theorem run (h : Waits t n a skipped r a') (before : Ahead.Run t first jobs taken a) :
    Ahead.Run t first jobs (taken ++ (skipped ++ r.toOption.toList)) a' := by
  induction h generalizing taken with
  | work rest ih => exact ih before.work
  | own hown => exact before.take
  | skip hother rest ih =>
      rw [List.cons_append, List.append_cons]
      exact ih before.take
  | closed hended =>
      simpa [Except.toOption] using before

/-- What is skipped has other numbers, and what ends the waiting has the number. -/
theorem sequences (h : Waits t n a skipped r a') :
    (∀ o ∈ skipped, o.sequence ≠ n) ∧ ∀ o, r = .ok o → o.sequence = n := by
  induction h with
  | work rest ih => exact ih
  | own hown =>
      refine ⟨nofun, ?_⟩
      intro o ho
      rw [← Except.ok.inj ho]
      exact hown
  | skip hother rest ih => exact ⟨List.forall_mem_cons.mpr ⟨hother, ih.1⟩, ih.2⟩
  | closed hended => exact ⟨nofun, nofun⟩

/-- A number that occurs in the list does so at its end. -/
def OnlyLast (n : Nat) (ns : List Nat) : Prop :=
  ∀ before after, ns = before ++ n :: after → after = []

theorem OnlyLast.mono {ns ns' : List Nat} (h : OnlyLast n ns) (hsub : ns' <+: ns) :
    OnlyLast n ns' := by
  intro before after hns'
  obtain ⟨more, hmore⟩ := hsub
  have hnone : after ++ more = [] := by
    apply h before
    rw [← hmore, hns', List.append_assoc, List.cons_append]
  exact (List.append_eq_nil_iff.mp hnone).1

theorem OnlyLast.tail {m : Nat} {ns : List Nat} (h : OnlyLast n (m :: ns)) : OnlyLast n ns := by
  intro before after hns
  exact h (m :: before) after (congrArg (m :: ·) hns)

theorem onlyLast_concat {ns : List Nat} (h : n ∉ ns) : OnlyLast n (ns ++ [n]) := by
  intro before after hns
  rcases List.eq_nil_or_concat after with hnil | ⟨after', m, rfl⟩
  · exact hnil
  · have hsplit : ns ++ [n] = (before ++ n :: after') ++ [m] := by simpa using hns
    obtain ⟨rfl, -⟩ := List.append_inj' hsplit rfl
    exact absurd (List.mem_append_right before List.mem_cons_self) h

/-- If no other response that may still come has the number, waiting for it ends when nothing may
come any more. -/
theorem nothing_left (h : Waits t n a skipped r a') (orderly : a.worker.Orderly)
    (last : OnlyLast n a.numbers) : a'.ready = [] ∧ a'.worker.queue = [] := by
  induction h with
  | @work a a' skipped r rest ih =>
      exact ih (orderly.receive t) (last.mono (a.isPrefix_numbers_work t))
  | @own w o ready hown =>
      have hnone := last [] (Ahead.numbers ⟨w, ready⟩) (by rw [← hown]; rfl)
      simpa [Ahead.numbers] using hnone
  | skip hother rest ih => exact ih orderly last.tail
  | closed hended => exact ⟨rfl, orderly hended⟩

end Waits

/-! ## Compiling -/

/-- What a worker without other jobs makes of a job. -/
def own (t : Transformer) (w : Worker) (j : Job) : Delivery × Worker := (w.offer j).receive t

/-- The job is answered under its number by a worker that lives on, or the worker has ended. -/
theorem own_cases (t : Transformer) (hqueue : w.queue = []) (j : Job) :
    (∃ o, (w.own t j).1 = .outcome o ∧ o.sequence = j.sequence ∧ w.alive = true ∧
        (w.own t j).2.alive = true) ∨
      (w.own t j).1 = .closed ∧ (w.own t j).2.alive = false := by
  rw [own]
  cases halive : w.alive with
  | false =>
      rw [offer_of_dead halive, Worker.receive, hqueue, halive]
      exact Or.inr ⟨rfl, rfl⟩
  | true =>
      have hoffer : (w.offer j).queue = [j] := by
        rw [offer_of_alive halive, hqueue]
        rfl
      rcases receive_cases t hoffer with
        ⟨o, w', hreceive, hsequence, -, hlives, -⟩ | ⟨w', hreceive, -, hdead, -⟩
      · rw [(offer_frame w j).1, halive] at hlives
        rw [hreceive]
        exact Or.inl ⟨o, rfl, hsequence, rfl, hlives⟩
      · rw [hreceive]
        exact Or.inr ⟨rfl, hdead⟩

theorem own_eq_outcome (hqueue : w.queue = []) {o : Outcome} (h : (w.own t j).1 = .outcome o) :
    o.sequence = j.sequence ∧ w.alive = true := by
  rcases own_cases t hqueue j with ⟨o', hown, hsequence, halive, -⟩ | ⟨hclosed, -⟩
  · obtain rfl : o' = o := Delivery.outcome.inj (hown.symm.trans h)
    exact ⟨hsequence, halive⟩
  · rw [h] at hclosed
    cases hclosed

theorem own_of_dead (t : Transformer) (halive : w.alive = false) (hqueue : w.queue = []) (j : Job) :
    w.own t j = (.closed, w) := by
  rw [own, offer_of_dead halive, Worker.receive, hqueue, halive]
  rfl

theorem mem_toOption_toList {o : Outcome} : o ∈ r.toOption.toList ↔ r = .ok o := by
  cases r <;> simp [Except.toOption, eq_comm]

theorem mem_outcome?_toList {d : Delivery} {o : Outcome} :
    o ∈ d.outcome?.toList ↔ d = .outcome o := by
  cases d <;> simp [Delivery.outcome?, eq_comm]

/-- Lists of outcomes that have those with the number at their ends are equal part by part. -/
theorem append_inj_of_sequence {skipped last earlier own : List Outcome}
    (h : skipped ++ last = earlier ++ own) (hskipped : ∀ o ∈ skipped, o.sequence ≠ n)
    (hearlier : ∀ o ∈ earlier, o.sequence ≠ n) (hlast : ∀ o ∈ last, o.sequence = n)
    (hown : ∀ o ∈ own, o.sequence = n) : skipped = earlier ∧ last = own := by
  have hothers {others numbered : List Outcome} (ho : ∀ o ∈ others, o.sequence ≠ n)
      (hn : ∀ o ∈ numbered, o.sequence = n) :
      (others ++ numbered).filter (fun o => decide (o.sequence ≠ n)) = others := by
    rw [List.filter_append, List.filter_eq_self.mpr (by simpa using ho),
      List.filter_eq_nil_iff.mpr (by simpa using hn), List.append_nil]
  have hsame : skipped = earlier := by
    rw [← hothers hskipped hlast, h, hothers hearlier hown]
  exact ⟨hsame, List.append_cancel_left (hsame ▸ h)⟩

namespace Compiles

/-- A compilation is a run that goes on from any other. -/
theorem run (h : Compiles t j a skipped r a') (before : Ahead.Run t first jobs taken a) :
    Ahead.Run t first (jobs ++ [j]) (taken ++ (skipped ++ r.toOption.toList)) a' := by
  cases h with
  | refused hsubmit =>
      have hsame : a.offer j = a := by rw [Ahead.offer, offer_of_dead (submit_eq_error hsubmit)]
      have hrun := before.submit j
      rw [hsame] at hrun
      simpa [Except.toOption] using hrun
  | submitted hsubmit hwaits =>
      obtain ⟨-, rfl⟩ := submit_eq_ok hsubmit
      exact hwaits.run (before.submit j)

/-- A compilation by a worker that takes the job skips what was owed before and ends with what the
worker makes of the job then. Nothing is left to come. -/
theorem spec_of_alive (h : Compiles t j a skipped r a') (orderly : a.worker.Orderly)
    (distinct : j.sequence ∉ a.numbers) (halive : a.worker.alive = true) :
    skipped = (a.owed t).1 ∧ (∀ o, r = .ok o ↔ ((a.owed t).2.own t j).1 = .outcome o) ∧
      a'.worker = ((a.owed t).2.own t j).2 ∧ a'.ready = [] ∧ a'.worker.queue = [] := by
  obtain ⟨htaken, hworker⟩ := (h.run .begin).owed orderly
  cases h with
  | refused hsubmit => exact absurd ((submit_eq_error hsubmit).symm.trans halive) Bool.false_ne_true
  | submitted hsubmit hwaits =>
      obtain ⟨-, rfl⟩ := submit_eq_ok hsubmit
      have hnumbers : Ahead.numbers ⟨a.worker.offer j, a.ready⟩ = a.numbers ++ [j.sequence] := by
        simp [Ahead.numbers, offer_of_alive halive]
      obtain ⟨hready, hqueue⟩ := hwaits.nothing_left (orderly.offer j)
        (hnumbers ▸ Waits.onlyLast_concat distinct)
      simp only [List.nil_append] at htaken hworker
      rw [Ahead.owed_of_nil t hqueue, oneByOne_singleton] at htaken hworker
      rw [hready, List.append_nil] at htaken
      -- What was owed before has other numbers than the job, as what is skipped has.
      obtain ⟨hothers, hnumber⟩ := hwaits.sequences
      have hearlier : ∀ o ∈ (a.owed t).1, o.sequence ≠ j.sequence := by
        intro o ho hsame
        exact distinct (hsame ▸ Ahead.sequence_mem_numbers ho)
      have hempty : (a.owed t).2.queue = [] := (afterwards_owed t a.worker).queue
      obtain ⟨hskipped, hlast⟩ := append_inj_of_sequence htaken
        hothers hearlier (fun o ho => hnumber o (mem_toOption_toList.mp ho))
        (fun o ho => (own_eq_outcome hempty (mem_outcome?_toList.mp ho)).1)
      refine ⟨hskipped, ?_, hworker, hready, hqueue⟩
      intro o
      rw [← mem_toOption_toList, hlast, mem_outcome?_toList]
      rfl

/-- A worker that has ended refuses the job, and nothing is taken. -/
theorem spec_of_dead (h : Compiles t j a skipped r a') (halive : a.worker.alive = false) :
    skipped = [] ∧ r = .error .closed ∧ a' = a := by
  cases h with
  | @refused e hsubmit => exact ⟨rfl, rfl, rfl⟩
  | submitted hsubmit hwaits =>
      exact absurd (halive.symm.trans (submit_eq_ok hsubmit).1) Bool.false_ne_true

/-- A compilation ends with what the worker makes of the job once it has answered those before. -/
theorem result_eq (h : Compiles t j a skipped r a') (orderly : a.worker.Orderly)
    (distinct : j.sequence ∉ a.numbers) :
    (∀ o, r = .ok o ↔ ((a.owed t).2.own t j).1 = .outcome o) ∧
      a'.worker = ((a.owed t).2.own t j).2 := by
  cases halive : a.worker.alive with
  | true =>
      obtain ⟨-, hok, hworker, -⟩ := h.spec_of_alive orderly distinct halive
      exact ⟨hok, hworker⟩
  | false =>
      obtain ⟨-, rfl, rfl⟩ := h.spec_of_dead halive
      have hqueue := orderly halive
      rw [Ahead.owed_of_nil t hqueue, own_of_dead t halive hqueue]
      exact ⟨fun o => iff_of_false nofun nofun, rfl⟩

end Compiles

/-- A compilation ends with an error exactly if the worker does not live to answer the job. -/
theorem eq_closed_iff (hqueue : w.queue = []) (hok : ∀ o, r = .ok o ↔ (w.own t j).1 = .outcome o) :
    r = .error .closed ↔ (w.own t j).2.alive = false := by
  rcases own_cases t hqueue j with ⟨o, hown, -, -, hlives⟩ | ⟨hclosed, hdead⟩
  · rw [(hok o).mpr hown, hlives]
    exact iff_of_false nofun nofun
  · refine iff_of_true ?_ hdead
    cases r with
    | error e => rfl
    | ok o =>
        have hown := (hok o).mp rfl
        rw [hclosed] at hown
        cases hown

/-! ## Coming to an end -/

/-- Waiting for the number is not in vain: its response may still come, or the worker has ended,
which will be noticed. -/
def Ahead.Decided (n : Nat) (a : Ahead) : Prop := n ∈ a.numbers ∨ a.worker.alive = false

theorem Ahead.Decided.work {a : Ahead} (h : a.Decided n) (orderly : a.worker.Orderly)
    (t : Transformer) : (a.work t).Decided n := by
  rcases a.numbers_work t with hsame | ⟨hdead, -⟩
  · rcases h with hmem | hdead
    · exact Or.inl (hsame ▸ hmem)
    · have hwork : (a.work t).worker = a.worker := (receive_of_nil t (orderly hdead)).1
      exact Or.inr (hwork ▸ hdead)
  · exact Or.inr hdead

theorem Ahead.Decided.skip {o : Outcome} {ready : List Outcome} (h : Decided n ⟨w, o :: ready⟩)
    (other : o.sequence ≠ n) : Decided n ⟨w, ready⟩ :=
  h.imp_left fun hmem => List.mem_of_ne_of_mem (Ne.symm other) hmem

/-- Nothing is left but the end of the worker to be noticed. -/
theorem Ahead.Decided.ended (h : Decided n ⟨w, []⟩) (hqueue : w.queue = []) : w.alive = false := by
  simpa [Decided, numbers, hqueue] using h

/-- How much a worker has still to do and to hand over. -/
def Ahead.size (a : Ahead) : Nat := 2 * a.worker.queue.length + a.ready.length

theorem Ahead.size_work (t : Transformer) {a : Ahead} (h : a.worker.queue ≠ []) :
    (a.work t).size < a.size := by
  obtain ⟨j, rest, hqueue⟩ := List.exists_cons_of_ne_nil h
  rcases receive_cases t hqueue with
    ⟨o, w', hreceive, -, hleft, -⟩ | ⟨w', hreceive, hleft, -⟩
  · simp only [size, work, hreceive, hleft, hqueue, Delivery.outcome?, Option.toList_some,
      List.length_append, List.length_cons, List.length_nil]
    omega
  · simp only [size, work, hreceive, hleft, hqueue, Delivery.outcome?, Option.toList_none,
      List.length_append, List.length_cons, List.length_nil]
    omega

/-- Waiting that is not in vain can come to an end at any time. -/
theorem exists_waits (t : Transformer) (n : Nat) (a : Ahead) (orderly : a.worker.Orderly)
    (h : a.Decided n) : ∃ skipped r a', Waits t n a skipped r a' := by
  induction hsize : a.size using Nat.strongRecOn generalizing a with
  | _ size ih =>
      obtain ⟨w, ready⟩ := a
      cases ready with
      | cons o ready =>
          by_cases hown : o.sequence = n
          · exact ⟨_, _, _, .own hown⟩
          · have hsmaller : Ahead.size ⟨w, ready⟩ < size := by
              simp only [← hsize, Ahead.size, List.length_cons]
              omega
            obtain ⟨skipped, r, a', hwaits⟩ := ih _ hsmaller ⟨w, ready⟩ orderly (h.skip hown) rfl
            exact ⟨o :: skipped, r, a', .skip hown hwaits⟩
      | nil =>
          by_cases hqueue : w.queue = []
          · exact ⟨_, _, _, .closed (h.ended hqueue)⟩
          · have hsmaller : (Ahead.work t ⟨w, []⟩).size < size :=
              hsize ▸ Ahead.size_work t hqueue
            obtain ⟨skipped, r, a', hwaits⟩ :=
              ih _ hsmaller _ (orderly.receive t) (h.work orderly t) rfl
            exact ⟨skipped, r, a', .work hwaits⟩

theorem decided_offer (halive : w.alive = true) (j : Job) (ready : List Outcome) :
    Ahead.Decided j.sequence ⟨w.offer j, ready⟩ := by
  refine Or.inl ?_
  simp [Ahead.numbers, offer_of_alive halive]

/-- A compilation can come to an end at any time. -/
theorem exists_compiles (t : Transformer) (j : Job) (a : Ahead) (orderly : a.worker.Orderly) :
    ∃ skipped r a', Compiles t j a skipped r a' := by
  cases hsubmit : a.worker.submit j with
  | error e => exact ⟨_, _, _, .refused hsubmit⟩
  | ok w =>
      obtain ⟨halive, rfl⟩ := submit_eq_ok hsubmit
      obtain ⟨skipped, r, a', hwaits⟩ := exists_waits t j.sequence ⟨a.worker.offer j, a.ready⟩
        (orderly.offer j) (decided_offer halive j a.ready)
      exact ⟨skipped, r, a', .submitted hsubmit hwaits⟩

/-! ## Working on demand -/

/-- Carrying out jobs as their responses are asked for is a way of waiting. -/
theorem waits_receiveUntil (t : Transformer) (fuel : Nat) (orderly : w.Orderly)
    (hfuel : w.queue.length ≤ fuel) (h : Ahead.Decided n ⟨w, []⟩) :
    ∃ skipped, Waits t n ⟨w, []⟩ skipped (w.receiveUntil t n fuel).1
      ⟨(w.receiveUntil t n fuel).2, []⟩ := by
  induction fuel generalizing w with
  | zero => exact ⟨[], .closed (h.ended (List.length_eq_zero_iff.mp (Nat.le_zero.mp hfuel)))⟩
  | succ fuel ih =>
      have hdecided := h.work orderly t
      have horderly := orderly.receive t
      cases hqueue : w.queue with
      | nil =>
          have hdead := h.ended hqueue
          have hreceive : w.receive t = (.closed, w) := by simp [receive, hqueue, hdead]
          rw [receiveUntil, hreceive]
          exact ⟨[], .closed hdead⟩
      | cons j rest =>
          rcases receive_cases t hqueue with
            ⟨o, w', hreceive, -, hleft, -⟩ | ⟨w', hreceive, -, hdead, -⟩
          · have hwork : Ahead.work t ⟨w, []⟩ = ⟨w', [o]⟩ := by
              rw [Ahead.work, hreceive]
              rfl
            have hless : w'.queue.length ≤ fuel := by
              rw [hqueue, List.length_cons] at hfuel
              exact hleft ▸ Nat.le_of_succ_le_succ hfuel
            rw [hreceive] at horderly
            rw [hwork] at hdecided
            rw [receiveUntil, hreceive]
            dsimp only
            by_cases hown : o.sequence = n
            · rw [if_pos hown]
              exact ⟨[], .work (hwork ▸ .own hown)⟩
            · rw [if_neg hown]
              obtain ⟨skipped, hwaits⟩ := ih horderly hless (hdecided.skip hown)
              exact ⟨o :: skipped, .work (hwork ▸ .skip hown hwaits)⟩
          · have hwork : Ahead.work t ⟨w, []⟩ = ⟨w', []⟩ := by
              rw [Ahead.work, hreceive]
              rfl
            rw [receiveUntil, hreceive]
            refine ⟨[], .work ?_⟩
            rw [hwork]
            exact .closed hdead

/-- A compilation that has jobs carried out as their responses are asked for is a compilation. -/
theorem compiles_compile (t : Transformer) (orderly : w.Orderly) (j : Job) :
    ∃ skipped, Compiles t j ⟨w, []⟩ skipped (w.compile t j).1 ⟨(w.compile t j).2, []⟩ := by
  cases hsubmit : w.submit j with
  | error e =>
      rw [compile, hsubmit]
      exact ⟨[], .refused hsubmit⟩
  | ok w' =>
      obtain ⟨halive, rfl⟩ := submit_eq_ok hsubmit
      obtain ⟨skipped, hwaits⟩ :=
        waits_receiveUntil t _ (orderly.offer j) (Nat.le_refl _) (decided_offer halive j [])
      rw [compile, hsubmit]
      exact ⟨skipped, .submitted hsubmit hwaits⟩

/-! ## Responses of one's own -/

/-- A transformer that cannot be loaded at first and breaks down while it is loaded again. -/
def shortLived : Transformer where
  load n := if n = 0 then .failure "not found" else .breakdown
  reply _ _ := .breakdown none
  time _ := .zero

/-- Jobs with these numbers. -/
def numbered (numbers : List Nat) : List Job :=
  numbers.map fun n => ⟨"a", "Demo.tsx", .null, n⟩

/-- A compilation need not take the responses to earlier jobs: a worker that has ended refuses the
job, and a response that was ready before is taken afterwards. -/
theorem not_forall_earlier_taken :
    ¬ ∀ (t : Transformer) (jobs : List Job) (taken : List Outcome) (a : Ahead),
      Ahead.Run t .fresh jobs taken a → ∀ j, j.sequence ∉ a.numbers →
        ∀ skipped r a', Compiles t j a skipped r a' →
          taken ++ skipped = (fresh.oneByOne t jobs).1 ∧
            ∀ later got a'', Ahead.Run t a' later got a'' →
              got <+: (a'.worker.oneByOne t later).1 := by
  intro hall
  have ended : Ahead.Run shortLived .fresh (numbered [1, 2]) [] _ :=
    (Ahead.Run.begin.submits (numbered [1, 2])).works 2
  obtain ⟨-, hlater⟩ :=
    hall _ _ _ _ ended ⟨"b", "Demo.tsx", .null, 3⟩ (by decide) _ _ _ (.refused rfl)
  have hnone := List.prefix_nil.mp (hlater [] _ _ Ahead.Run.begin.take)
  cases hnone

/-- Whenever a worker has carried out the jobs it was given, and whichever responses were taken,
compiling a job with a number of its own can come to an end, as it does when jobs are carried out on
demand. It ends with the response that the worker gives to the job once it has answered those
before, all of them, and with an error exactly if the worker ends before, that is, if an attempt to
load breaks down. If the worker takes the job, the responses to all earlier jobs are taken by then
and only those to later jobs come afterwards. If the worker had ended already, compiling ends with
an error and changes nothing: the responses to earlier jobs that are ready come afterwards, and no
others. -/
theorem compile_own_response (run : Ahead.Run t .fresh jobs taken a)
    (distinct : j.sequence ∉ a.numbers) :
    let earlier := fresh.oneByOne t jobs
    let own := earlier.2.own t j
    (∃ skipped r a', Compiles t j a skipped r a') ∧
      (a.ready = [] → ∃ skipped,
        Compiles t j a skipped (a.worker.compile t j).1 ⟨(a.worker.compile t j).2, []⟩) ∧
      (own.2.alive = false ↔ ∃ n < own.2.loads, t.load n = .breakdown) ∧
      ∀ skipped r a', Compiles t j a skipped r a' →
        (∀ o, r = .ok o ↔ own.1 = .outcome o) ∧ (r = .error .closed ↔ own.2.alive = false) ∧
        (∀ o, r = .ok o → o.sequence = j.sequence ∧
          earlier.1.map Outcome.sequence = jobs.map Job.sequence) ∧
        a'.worker = own.2 ∧
        (a.worker.alive = true → taken ++ skipped = earlier.1 ∧ a'.ready = [] ∧
          ∀ later got a'', Ahead.Run t a' later got a'' →
            got ++ (a''.owed t).1 = (own.2.oneByOne t later).1) ∧
        (a.worker.alive = false → r = .error .closed ∧ skipped = [] ∧ a' = a ∧
          taken ++ a.ready = earlier.1 ∧
          ∀ later got a'', Ahead.Run t a later got a'' → got ++ (a''.owed t).1 = a.ready) := by
  intro earlier own
  have horderly := run.orderly (Sound.fresh t).orderly
  obtain ⟨htaken, hworker⟩ := run.owed_fresh
  have hearlier := afterwards_oneByOne t (w := fresh) rfl jobs
  refine ⟨exists_compiles t j a horderly, ?_, ?_, ?_⟩
  · intro hready
    obtain ⟨w, ready⟩ := a
    obtain rfl : ready = [] := hready
    exact compiles_compile t horderly j
  · exact (((Sound.fresh t).oneByOne jobs).offer j).receive.ended_iff
  · intro skipped r a' h
    obtain ⟨hok, hleft⟩ := h.result_eq horderly distinct
    rw [hworker] at hok hleft
    refine ⟨hok, eq_closed_iff hearlier.queue hok, ?_, hleft, ?_, ?_⟩
    · intro o ho
      obtain ⟨hsequence, halive⟩ := own_eq_outcome hearlier.queue ((hok o).mp ho)
      exact ⟨hsequence, hearlier.alive halive⟩
    · intro halive
      obtain ⟨rfl, -, -, hready, hqueue⟩ := h.spec_of_alive horderly distinct halive
      refine ⟨htaken, hready, ?_⟩
      intro later got a'' hrun
      have howed := (hrun.owed (orderly_of_queue hqueue)).1
      rw [Ahead.owed_of_nil t hqueue, hready, hleft] at howed
      exact howed
    · intro halive
      obtain ⟨rfl, rfl, rfl⟩ := h.spec_of_dead halive
      have hqueue := horderly halive
      rw [Ahead.owed_of_nil t hqueue] at htaken
      refine ⟨rfl, rfl, rfl, htaken, ?_⟩
      intro later got a'' hrun
      have howed := (hrun.owed horderly).1
      rw [Ahead.owed_of_nil t hqueue, oneByOne_of_dead t halive hqueue, List.append_nil] at howed
      exact howed

/-- The transformer breaks down over the job that is compiled, behind two jobs of one number. Behind
five jobs it cannot be loaded any more, and behind six the worker has ended already if it has
carried them out. -/
theorem compile_own_response_moody :
    (∃ a, Ahead.Run Ledger.moody .fresh (numbered [5, 5]) [] a ∧ 3 ∉ a.numbers ∧
      ∃ skipped a', Compiles Ledger.moody ⟨"b", "Demo.tsx", .null, 3⟩ a skipped
        (.ok ⟨none, none, some "Transform panicked: unknown panic", .zero, 3⟩) a' ∧
        skipped.map Outcome.sequence = [5, 5] ∧ a'.ready = []) ∧
    (∃ a, Ahead.Run Ledger.moody .fresh (numbered [1, 2, 3, 4, 5]) [] a ∧ 6 ∉ a.numbers ∧
      ∃ skipped a',
        Compiles Ledger.moody ⟨"b", "Demo.tsx", .null, 6⟩ a skipped (.error .closed) a' ∧
        skipped.map Outcome.sequence = [1, 2, 3, 4, 5] ∧ a'.ready = []) ∧
    ∃ a, Ahead.Run Ledger.moody .fresh (numbered [1, 2, 3, 4, 5, 6]) [] a ∧ 7 ∉ a.numbers ∧
      Compiles Ledger.moody ⟨"b", "Demo.tsx", .null, 7⟩ a [] (.error .closed) a ∧
      a.ready.map Outcome.sequence = [1, 2, 3, 4, 5] := by
  refine ⟨⟨_, Ahead.Run.begin.submits _, by decide, ?_⟩,
    ⟨_, Ahead.Run.begin.submits _, by decide, ?_⟩,
    ⟨_, (Ahead.Run.begin.submits _).works 6, by decide, ?_⟩⟩
  · obtain ⟨⟨skipped, r, a', h⟩, -, -, hall⟩ := compile_own_response (t := Ledger.moody)
      (j := ⟨"b", "Demo.tsx", .null, 3⟩) (Ahead.Run.begin.submits (numbered [5, 5])) (by decide)
    obtain ⟨hok, -, -, -, hliving, -⟩ := hall skipped r a' h
    obtain ⟨hskipped, hready, -⟩ := hliving rfl
    obtain rfl :=
      (hok ⟨none, none, some "Transform panicked: unknown panic", .zero, 3⟩).mpr (by decide)
    refine ⟨skipped, a', h, ?_, hready⟩
    rw [← List.nil_append skipped, hskipped]
    decide
  · obtain ⟨⟨skipped, r, a', h⟩, -, hended, hall⟩ := compile_own_response (t := Ledger.moody)
      (j := ⟨"b", "Demo.tsx", .null, 6⟩) (Ahead.Run.begin.submits (numbered [1, 2, 3, 4, 5]))
      (by decide)
    obtain ⟨-, hclosed, -, -, hliving, -⟩ := hall skipped r a' h
    obtain ⟨hskipped, hready, -⟩ := hliving rfl
    obtain rfl := hclosed.mpr (hended.mpr ⟨3, by decide, rfl⟩)
    refine ⟨skipped, a', h, ?_, hready⟩
    rw [← List.nil_append skipped, hskipped]
    decide
  · obtain ⟨⟨skipped, r, a', h⟩, -, -, hall⟩ := compile_own_response (t := Ledger.moody)
      (j := ⟨"b", "Demo.tsx", .null, 7⟩)
      ((Ahead.Run.begin.submits (numbered [1, 2, 3, 4, 5, 6])).works 6) (by decide)
    obtain ⟨-, -, -, -, -, hdead⟩ := hall skipped r a' h
    obtain ⟨rfl, rfl, rfl, -⟩ := hdead rfl
    exact ⟨h, by decide⟩

end Provenance.Worker

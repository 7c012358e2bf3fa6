import Mathlib.Data.List.Chain
import Provenance.Proofs.Worker.Delivery

/-!
# The protocol of the worker

A worker is given jobs and asked for responses in any order. It takes up its jobs in the order in
which they came. Each job leads to an attempt to load exactly if no transformer is left from the job
before, and to one call exactly if there is a transformer then. It is answered under its own number,
unless loading broke down over it or over a job ahead of it.

## Implementation notes

A `Treatment` does not repeat what `carryOut` decides. It compares the worker after a job with the
worker before it: the attempts are those counted in between, and the calls are those noted in
between. `Loading.loads` and `Calling.calls` say that nothing was loaded or called besides.
-/

namespace Provenance

/-- The outcome that was handed over, if one was. -/
def Delivery.outcome? : Delivery → Option Outcome
  | .outcome o => some o
  | _ => none

/-- Exactly one of code and diagnostic is there, and a map only with the code. -/
structure Outcome.WellFormed (o : Outcome) : Prop where
  generated_or_diagnostic : o.generated.isSome = true ↔ ¬ o.diagnostic.isSome = true
  generated_of_map : o.map.isSome = true → o.generated.isSome = true

theorem Reply.wellFormed_response (sequence : Nat) (r : Reply) (time : Binary64) :
    (Outcome.ofResponse sequence (r.response time)).WellFormed := by
  cases r <;> constructor <;> simp [Outcome.ofResponse, Reply.response]

namespace Worker

/-- What a worker is asked to do. -/
inductive Action
  | submit (j : Job)
  | receive

/-- What taking up a job led to: attempts to load with their results, and calls with their
answers. -/
structure Treatment where
  job : Job
  loads : List Loading
  calls : List (Invocation × Reply)

namespace Treatment

/-- The transformer could not be loaded. -/
def LoadFailed (x : Treatment) : Prop := ∃ message, Loading.failure message ∈ x.loads

/-- The transformer broke down when it was called. -/
def CallBroke (x : Treatment) : Prop := ∃ c ∈ x.calls, c.2.survives = false

/-- A transformer could be called, because one was left or because it was loaded. -/
def Equipped (x : Treatment) : Prop := x.loads = [] ∨ x.loads = [.ready]

/-- Loading is tried at most once, and a transformer that can be called is called once, with the
job. -/
structure Proper (x : Treatment) : Prop where
  loads : x.loads.length ≤ 1
  called : x.Equipped → ∃ v r, x.calls = [(v, r)] ∧ v.call = .ofJob x.job
  uncalled : ¬ x.Equipped → x.calls = []

end Treatment

/-- The calls of a worker, each with its answer. -/
def replies (t : Transformer) (w : Worker) : List (Invocation × Reply) :=
  w.invocations.zipIdx.map fun (v, n) => (v, t.reply n v.call)

/-- What taking up a job leads to, seen from the worker before and the worker after. -/
def treatment (t : Transformer) (w : Worker) (j : Job) : Treatment :=
  let w' := (w.receive t).2
  ⟨j, (List.range' w.loads (w'.loads - w.loads)).map t.load,
    (w'.replies t).drop w.invocations.length⟩

/-- The worker after it was given a job, which it may not take. -/
def offer (w : Worker) (j : Job) : Worker := (w.submit j).toOption.getD w

/-- A worker together with the jobs it was given, what it did for those it took up, and what it
responded. -/
structure Ledger where
  worker : Worker
  offered : List Job
  treated : List Treatment
  responses : List Outcome

namespace Ledger

/-- The ledger after one more action. -/
def enter (t : Transformer) (l : Ledger) : Action → Ledger
  | .submit j => { l with worker := l.worker.offer j, offered := l.offered ++ [j] }
  | .receive =>
    { l with
      worker := (l.worker.receive t).2
      treated := l.treated ++ (l.worker.queue.head?.map (l.worker.treatment t)).toList
      responses := l.responses ++ (l.worker.receive t).1.outcome?.toList }

/-- The ledger of a new worker. -/
def blank : Ledger := ⟨.fresh, [], [], []⟩

/-- The ledger of a new worker after some actions, first the oldest. -/
def ofActions (t : Transformer) (actions : List Action) : Ledger := actions.foldl (enter t) blank

/-- The jobs over which loading broke down. -/
def brokenOver (l : Ledger) : List Job :=
  (l.treated.filter fun x => decide (.breakdown ∈ x.loads)).map Treatment.job

/-- All calls with their answers. -/
def calls (l : Ledger) : List (Invocation × Reply) := l.treated.flatMap Treatment.calls

end Ledger

variable {t : Transformer} {w w' : Worker} {j : Job} {rest : List Job} {d : Delivery}
  {x : Treatment} {l : Ledger}

/-! ## One action -/

/-- The answer to the next call, if it is made for the given job. -/
def nextReply (t : Transformer) (w : Worker) (j : Job) : Reply :=
  t.reply w.invocations.length (.ofJob j)

/-- The worker after it has called its transformer for a job, with the rest of the queue. -/
def called (t : Transformer) (w : Worker) (j : Job) (rest : List Job) : Worker :=
  { w with
    queue := rest
    loaded := (w.nextReply t j).survives
    answered := w.answered + 1
    invocations := w.invocations ++ [⟨w.loads, .ofJob j⟩] }

/-- The worker after one more attempt to load. -/
def attempted (w : Worker) : Worker := { w with loads := w.loads + 1 }

/-- The outcome of that call. -/
def nextOutcome (t : Transformer) (w : Worker) (j : Job) : Outcome :=
  .ofResponse j.sequence ((w.nextReply t j).response (t.time w.answered))

/-- What taking up a job leads to: a call of the transformer that is left or that could be loaded, a
failed attempt to load, or the end of the worker. -/
inductive TakesUp (t : Transformer) (w : Worker) (j : Job) (rest : List Job) :
    Delivery → Treatment → Worker → Prop
  | left (loaded : w.loaded = true) :
      TakesUp t w j rest (.outcome (w.nextOutcome t j))
        ⟨j, [], [(⟨w.loads, .ofJob j⟩, w.nextReply t j)]⟩ (w.called t j rest)
  | ready (unloaded : w.loaded = false) (load : t.load w.loads = .ready) :
      TakesUp t w j rest (.outcome (w.nextOutcome t j))
        ⟨j, [.ready], [(⟨w.loads + 1, .ofJob j⟩, w.nextReply t j)]⟩ (w.attempted.called t j rest)
  | failed {message : String} (unloaded : w.loaded = false)
      (load : t.load w.loads = .failure message) :
      TakesUp t w j rest
        (.outcome (.ofResponse j.sequence ⟨none, some message, t.time w.answered, none⟩))
        ⟨j, [.failure message], []⟩
        { w.attempted with queue := rest, answered := w.answered + 1 }
  | broken (unloaded : w.loaded = false) (load : t.load w.loads = .breakdown) :
      TakesUp t w j rest .closed ⟨j, [.breakdown], []⟩ w.attempted.die

/-- The calls of a worker are those it had made before and the new ones. -/
theorem replies_append (vs : List Invocation) (h : w'.invocations = w.invocations ++ vs) :
    w'.replies t = w.replies t ++
      (vs.zipIdx w.invocations.length).map fun (v, n) => (v, t.reply n v.call) := by
  simp [replies, h, List.zipIdx_append]

/-- What taking up a job leads to, once it is known what is handed over and left behind. -/
theorem takesUp_of_eq (loads : List Loading) (vs : List Invocation)
    (hreceive : w.receive t = (d, w')) (hcount : w'.loads = w.loads + loads.length)
    (hloads : (List.range' w.loads loads.length).map t.load = loads)
    (hcalls : w'.invocations = w.invocations ++ vs)
    (h : TakesUp t w j rest d
      ⟨j, loads, (vs.zipIdx w.invocations.length).map fun (v, n) => (v, t.reply n v.call)⟩ w') :
    TakesUp t w j rest (w.receive t).1 (w.treatment t j) (w.receive t).2 := by
  have hlength : (w.replies t).length = w.invocations.length := by simp [replies]
  rw [treatment, hreceive]
  dsimp only
  rwa [replies_append vs hcalls, hcount, Nat.add_sub_cancel_left, hloads, ← hlength,
    List.drop_left, hlength]

/-- The oldest job is taken up. -/
theorem takesUp (t : Transformer) (hqueue : w.queue = j :: rest) :
    TakesUp t w j rest (w.receive t).1 (w.treatment t j) (w.receive t).2 := by
  have hcarry : w.receive t = { w with queue := rest }.carryOut t j := by rw [receive, hqueue]
  rw [carryOut] at hcarry
  cases hloaded : w.loaded with
  | true =>
      rw [if_pos hloaded] at hcarry
      exact takesUp_of_eq [] [_] hcarry rfl rfl rfl (.left hloaded)
  | false =>
      rw [if_neg (by simp [hloaded])] at hcarry
      cases hload : t.load w.loads with
      | ready =>
          simp only [hload] at hcarry
          exact takesUp_of_eq [_] [_] hcarry rfl (by simp [hload]) rfl
            (.ready hloaded hload)
      | failure message =>
          simp only [hload] at hcarry
          exact takesUp_of_eq [_] [] hcarry rfl (by simp [hload])
            (List.append_nil _).symm (.failed hloaded hload)
      | breakdown =>
          simp only [hload] at hcarry
          exact takesUp_of_eq [_] [] hcarry rfl (by simp [hload])
            (List.append_nil _).symm (.broken hloaded hload)

theorem receive_of_nil (t : Transformer) (hqueue : w.queue = []) :
    (w.receive t).2 = w ∧ (w.receive t).1.outcome? = none := by
  rw [receive, hqueue]
  cases w.alive <;> exact ⟨rfl, rfl⟩

theorem offer_of_alive (h : w.alive = true) (j : Job) :
    w.offer j = { w with queue := w.queue ++ [j] } := by
  simp [offer, submit, h, Except.toOption]

theorem offer_of_dead (h : w.alive = false) (j : Job) : w.offer j = w := by
  simp [offer, submit, h, Except.toOption]

/-- A job in the queue does not change what the worker has done. -/
theorem offer_frame (w : Worker) (j : Job) : (w.offer j).alive = w.alive ∧
    (w.offer j).loaded = w.loaded ∧ (w.offer j).loads = w.loads ∧
      (w.offer j).invocations = w.invocations := by
  cases h : w.alive with
  | true =>
      rw [offer_of_alive h]
      exact ⟨h, rfl, rfl, rfl⟩
  | false =>
      rw [offer_of_dead h]
      exact ⟨h, rfl, rfl, rfl⟩

namespace Ledger

/-- The ledger after the oldest job was taken up. -/
def after (l : Ledger) (d : Delivery) (x : Treatment) (w : Worker) : Ledger :=
  ⟨w, l.offered, l.treated ++ [x], l.responses ++ d.outcome?.toList⟩

theorem enter_receive_of_nil (t : Transformer) (hqueue : l.worker.queue = []) :
    l.enter t .receive = l := by
  obtain ⟨hworker, houtcome⟩ := receive_of_nil t hqueue
  simp [enter, hqueue, hworker, houtcome]

theorem enter_receive_of_cons (t : Transformer) (hqueue : l.worker.queue = j :: rest) :
    l.enter t .receive = l.after (l.worker.receive t).1 (l.worker.treatment t j)
      (l.worker.receive t).2 := by
  simp [enter, after, hqueue]

theorem ofActions_concat (t : Transformer) (actions : List Action) (a : Action) :
    ofActions t (actions ++ [a]) = (ofActions t actions).enter t a := by
  rw [ofActions, List.foldl_concat, ofActions]

/-- The ledgers that a new worker can get by being given jobs and taking them up. -/
inductive Reached (t : Transformer) : Ledger → Prop
  | begin : Reached t blank
  | submit {l : Ledger} (reached : Reached t l) (j : Job) : Reached t (l.enter t (.submit j))
  | takeUp {l : Ledger} {j : Job} {rest : List Job} {d : Delivery} {x : Treatment} {w : Worker}
      (reached : Reached t l) (queue : l.worker.queue = j :: rest)
      (takesUp : TakesUp t l.worker j rest d x w) : Reached t (l.after d x w)

theorem reached_ofActions (t : Transformer) (actions : List Action) :
    Reached t (ofActions t actions) := by
  induction actions using List.reverseRecOn with
  | nil => exact .begin
  | append_singleton actions a ih =>
      rw [ofActions_concat]
      cases a with
      | submit j => exact ih.submit j
      | receive =>
          cases hqueue : (ofActions t actions).worker.queue with
          | nil =>
              rw [enter_receive_of_nil t hqueue]
              exact ih
          | cons j rest =>
              rw [enter_receive_of_cons t hqueue]
              exact ih.takeUp hqueue (takesUp t hqueue)

/-! ## Responses -/

/-- The jobs ahead were taken up. Those behind are in the queue of a living worker; a dead one broke
down over the first of them. -/
inductive Answering (l : Ledger) (ahead behind : List Job) : Prop
  | living (alive : l.worker.alive = true) (queue : l.worker.queue = behind)
      (treated : l.treated.map Treatment.job = ahead) (broken : l.brokenOver = [])
  | dead {j : Job} (alive : l.worker.alive = false) (queue : l.worker.queue = [])
      (first : behind.head? = some j) (treated : l.treated.map Treatment.job = ahead ++ [j])
      (broken : l.brokenOver = [j])

/-- Every response is well formed. -/
theorem Reached.wellFormed (h : Reached t l) : ∀ o ∈ l.responses, o.WellFormed := by
  induction h with
  | begin => exact nofun
  | submit h j ih => exact ih
  | takeUp h hqueue hup ih =>
      intro o ho
      rcases List.mem_append.mp ho with hold | hnew
      · exact ih o hold
      · cases hup with
        | left | ready =>
            obtain rfl := List.mem_singleton.mp hnew
            exact Reply.wellFormed_response _ _ _
        | failed =>
            obtain rfl := List.mem_singleton.mp hnew
            constructor <;> simp [Outcome.ofResponse]
        | broken => exact absurd hnew List.not_mem_nil

@[simp] theorem brokenOver_after (l : Ledger) (d : Delivery) (x : Treatment) (w : Worker) :
    (l.after d x w).brokenOver =
      l.brokenOver ++ if .breakdown ∈ x.loads then [x.job] else [] := by
  by_cases h : Loading.breakdown ∈ x.loads <;> simp [brokenOver, after, h]

/-- A job that is given goes behind the others. -/
theorem Answering.submit {ahead behind : List Job} (h : l.Answering ahead behind) (j : Job) :
    (l.enter t (.submit j)).Answering ahead (behind ++ [j]) := by
  cases h with
  | living halive hqueue htreated hbroken =>
      refine .living ?_ ?_ htreated hbroken
      · rw [enter, offer_of_alive halive]
        exact halive
      · rw [enter, offer_of_alive halive]
        exact congrArg (· ++ [j]) hqueue
  | dead halive hqueue hfirst htreated hbroken =>
      refine .dead ?_ ?_ ?_ htreated hbroken
      · rw [enter, offer_of_dead halive]
        exact halive
      · rw [enter, offer_of_dead halive]
        exact hqueue
      · rw [List.head?_append, hfirst]
        rfl

/-- The job that is taken up gets its response, unless loading breaks down over it. -/
theorem Answering.takeUp {ahead behind : List Job} (h : l.Answering ahead behind)
    (hqueue : l.worker.queue = j :: rest) (hup : TakesUp t l.worker j rest d x w) :
    behind = j :: rest ∧
      ((∃ o, d.outcome? = some o ∧ o.sequence = j.sequence ∧
          (l.after d x w).Answering (ahead ++ [j]) rest) ∨
        d.outcome? = none ∧ (l.after d x w).Answering ahead behind) := by
  cases h with
  | dead halive hempty =>
      rw [hempty] at hqueue
      cases hqueue
  | living halive hbehind htreated hbroken =>
      obtain rfl : behind = j :: rest := hbehind.symm.trans hqueue
      refine ⟨rfl, ?_⟩
      cases hup with
      | left | ready | failed =>
          refine Or.inl ⟨_, rfl, rfl, .living halive rfl ?_ ?_⟩
          · simp [after, htreated]
          · simp [hbroken]
      | broken =>
          refine Or.inr ⟨rfl, .dead (j := j) rfl rfl rfl ?_ ?_⟩
          · simp [after, htreated]
          · simp [hbroken]

/-- The responses answer the jobs that were given, in their order and under their numbers, up to the
job over which loading broke down. -/
theorem Reached.answering (h : Reached t l) :
    ∃ ahead behind, l.offered = ahead ++ behind ∧
      l.responses.map Outcome.sequence = ahead.map Job.sequence ∧ l.Answering ahead behind := by
  induction h with
  | begin => exact ⟨[], [], rfl, rfl, .living rfl rfl rfl rfl⟩
  | submit h j ih =>
      obtain ⟨ahead, behind, hoffered, hresponses, hanswering⟩ := ih
      refine ⟨ahead, behind ++ [j], ?_, hresponses, hanswering.submit j⟩
      rw [← List.append_assoc, ← hoffered]
      rfl
  | takeUp h hqueue hup ih =>
      obtain ⟨ahead, behind, hoffered, hresponses, hanswering⟩ := ih
      obtain ⟨rfl, hup⟩ := hanswering.takeUp hqueue hup
      rcases hup with ⟨o, ho, hsequence, hanswering⟩ | ⟨hnone, hanswering⟩
      · refine ⟨ahead ++ [_], _, ?_, ?_, hanswering⟩
        · rw [List.append_assoc]
          exact hoffered
        · simp [after, ho, hresponses, hsequence]
      · refine ⟨ahead, _, hoffered, ?_, hanswering⟩
        simp [after, hnone, hresponses]

/-- Jobs are left in the queue of a living worker only. -/
theorem Reached.alive_of_queue (h : Reached t l) (hqueue : l.worker.queue = j :: rest) :
    l.worker.alive = true := by
  obtain ⟨ahead, behind, -, -, hanswering⟩ := h.answering
  cases hanswering with
  | living halive => exact halive
  | dead halive hempty =>
      rw [hempty] at hqueue
      cases hqueue

end Ledger

/-! ## Attempts to load -/

namespace TakesUp

/-- Loading is tried exactly if no transformer is left. -/
theorem loads_ne_nil_iff (h : TakesUp t w j rest d x w') : x.loads ≠ [] ↔ w.loaded = false := by
  cases h with
  | left hloaded => simp [hloaded]
  | ready hunloaded | failed hunloaded | broken hunloaded => simp [hunloaded]

/-- A worker that lives on has no transformer if it could not load one or if the one that it called
broke down. -/
theorem loaded_eq_false_iff (h : TakesUp t w j rest d x w') (halive : w'.alive = true) :
    w'.loaded = false ↔ x.LoadFailed ∨ x.CallBroke := by
  cases h with
  | left hloaded => simp [called, Treatment.LoadFailed, Treatment.CallBroke]
  | ready hunloaded hload =>
      simp [called, attempted, nextReply, Treatment.LoadFailed, Treatment.CallBroke]
  | failed hunloaded hload =>
      refine iff_of_true hunloaded (Or.inl ⟨_, List.mem_singleton_self _⟩)
  | broken => exact absurd halive Bool.false_ne_true

/-- The attempts are the next ones of the worker. -/
theorem attempts (h : TakesUp t w j rest d x w') : w'.loads = w.loads + x.loads.length ∧
    x.loads = (List.range' w.loads x.loads.length).map t.load := by
  cases h with
  | left => exact ⟨rfl, rfl⟩
  | ready hunloaded hload | failed hunloaded hload | broken hunloaded hload =>
      exact ⟨rfl, by simp [hload]⟩

/-- A transformer that is there afterwards was loaded at the last attempt. -/
theorem exists_ready (h : TakesUp t w j rest d x w')
    (hbefore : w.loaded = true → ∃ n, w.loads = n + 1 ∧ t.load n = .ready)
    (hloaded : w'.loaded = true) : ∃ n, w'.loads = n + 1 ∧ t.load n = .ready := by
  cases h with
  | left hleft => exact hbefore hleft
  | ready hunloaded hload => exact ⟨_, rfl, hload⟩
  | failed hunloaded => exact absurd (hunloaded.symm.trans hloaded) Bool.false_ne_true
  | broken => exact absurd hloaded Bool.false_ne_true

/-- The queue is left without the job. -/
theorem length_queue_le (h : TakesUp t w j rest d x w') : w'.queue.length ≤ rest.length := by
  cases h with
  | left | ready | failed => exact Nat.le_refl _
  | broken => exact Nat.zero_le _

theorem proper (h : TakesUp t w j rest d x w') : x.Proper := by
  cases h with
  | left => exact ⟨Nat.zero_le 1, fun _ => ⟨_, _, rfl, rfl⟩, fun hnot => absurd (Or.inl rfl) hnot⟩
  | ready => exact ⟨Nat.le_refl 1, fun _ => ⟨_, _, rfl, rfl⟩, fun hnot => absurd (Or.inr rfl) hnot⟩
  | failed | broken =>
      refine ⟨Nat.le_refl 1, fun hequipped => ?_, fun _ => rfl⟩
      simp [Treatment.Equipped] at hequipped

end TakesUp

namespace Ledger

/-- The attempts to load are those that the jobs led to, and a job leads to one exactly if the job
before left no transformer. -/
structure Loads (t : Transformer) (l : Ledger) : Prop where
  attempts : l.treated.flatMap Treatment.loads = (List.range l.worker.loads).map t.load
  first : ∀ x, l.treated.head? = some x → x.loads ≠ []
  later : l.treated.IsChain fun x y => y.loads ≠ [] ↔ x.LoadFailed ∨ x.CallBroke
  unloaded : l.treated = [] → l.worker.loaded = false
  last : l.worker.alive = true → ∀ x, l.treated.getLast? = some x →
    (l.worker.loaded = false ↔ x.LoadFailed ∨ x.CallBroke)
  ready : l.worker.loaded = true → ∃ n, l.worker.loads = n + 1 ∧ t.load n = .ready

namespace Loads

theorem submit (h : Loads t l) (j : Job) : Loads t (l.enter t (.submit j)) := by
  obtain ⟨halive, hloaded, hloads, -⟩ := offer_frame l.worker j
  constructor
  · simpa only [enter, hloads] using h.attempts
  · exact h.first
  · exact h.later
  · simpa only [enter, hloaded] using h.unloaded
  · simpa only [enter, halive, hloaded] using h.last
  · simpa only [enter, hloaded, hloads] using h.ready

theorem takeUp (h : Loads t l) (halive : l.worker.alive = true)
    (hup : TakesUp t l.worker j rest d x w) : Loads t (l.after d x w) where
  attempts := by
    obtain ⟨hcount, hloads⟩ := hup.attempts
    have hrange : List.range (l.worker.loads + x.loads.length) =
        List.range l.worker.loads ++ List.range' l.worker.loads x.loads.length := by
      simp only [List.range_eq_range']
      rw [← List.range'_append_1, Nat.zero_add]
    calc
      (l.after d x w).treated.flatMap Treatment.loads =
          l.treated.flatMap Treatment.loads ++ x.loads := by simp [after]
      _ = (List.range l.worker.loads).map t.load ++
          (List.range' l.worker.loads x.loads.length).map t.load := by rw [h.attempts, ← hloads]
      _ = (List.range w.loads).map t.load := by rw [hcount, hrange, List.map_append]
  first := by
    intro y hy
    cases htreated : l.treated with
    | nil =>
        obtain rfl : x = y := by simpa [after, htreated] using hy
        exact hup.loads_ne_nil_iff.mpr (h.unloaded htreated)
    | cons z zs =>
        refine h.first y ?_
        simpa [after, htreated] using hy
  later := by
    rw [after, List.isChain_append]
    refine ⟨h.later, List.isChain_singleton x, ?_⟩
    intro y hy z hz
    obtain rfl : x = z := by simpa using hz
    rw [hup.loads_ne_nil_iff, h.last halive y hy]
  unloaded := by simp [after]
  last := by
    intro halive' y hy
    obtain rfl : x = y := by simpa [after] using hy
    exact hup.loaded_eq_false_iff halive'
  ready := hup.exists_ready h.ready

end Loads

theorem Reached.loads (h : Reached t l) : Loads t l := by
  induction h with
  | begin => exact ⟨rfl, nofun, .nil, fun _ => rfl, nofun, nofun⟩
  | submit h j ih => exact ih.submit j
  | takeUp h hqueue hup ih => exact ih.takeUp (h.alive_of_queue hqueue) hup

/-- Every job is treated properly. -/
theorem Reached.proper (h : Reached t l) : ∀ x ∈ l.treated, x.Proper := by
  induction h with
  | begin => exact nofun
  | submit h j ih => exact ih
  | takeUp h hqueue hup ih =>
      intro y hy
      rcases List.mem_append.mp hy with hy | hy
      · exact ih y hy
      · rw [List.mem_singleton.mp hy]
        exact hup.proper

end Ledger

/-! ## Calls -/

/-- A call that a job leads to goes to the transformer that was loaded last, which is left
afterwards exactly if it survives the call. -/
theorem TakesUp.calls_cases (h : TakesUp t w j rest d x w') :
    x.calls = [] ∧ w'.invocations = w.invocations ∧ w'.loaded = false ∧ w.loads ≤ w'.loads ∨
      ∃ v r, x.calls = [(v, r)] ∧ w'.invocations = w.invocations ++ [v] ∧ w'.loaded = r.survives ∧
        r = t.reply w.invocations.length v.call ∧ v.load = w'.loads ∧
        (w.loaded = true ∧ w'.loads = w.loads ∨
          w'.loads = w.loads + 1 ∧ t.load w.loads = .ready) := by
  cases h with
  | left hloaded => exact Or.inr ⟨_, _, rfl, rfl, rfl, rfl, rfl, Or.inl ⟨hloaded, rfl⟩⟩
  | ready hunloaded hload => exact Or.inr ⟨_, _, rfl, rfl, rfl, rfl, rfl, Or.inr ⟨rfl, hload⟩⟩
  | failed hunloaded => exact Or.inl ⟨rfl, rfl, hunloaded, Nat.le_succ _⟩
  | broken => exact Or.inl ⟨rfl, rfl, rfl, Nat.le_succ _⟩

namespace Ledger

/-- The calls are those that the jobs led to. Each went to a transformer that had been loaded, and
none to one that had broken down. -/
structure Calls (t : Transformer) (l : Ledger) : Prop where
  replies : l.calls = l.worker.replies t
  ready : ∀ c ∈ l.calls, ∃ n, c.1.load = n + 1 ∧ t.load n = .ready
  le : ∀ c ∈ l.calls, c.1.load ≤ l.worker.loads
  lt : l.worker.loaded = true → ∀ c ∈ l.calls, c.2.survives = false → c.1.load < l.worker.loads
  pairwise : l.calls.Pairwise fun c c' => c.2.survives = false → c.1.load < c'.1.load

namespace Calls

theorem submit (h : Calls t l) (j : Job) : Calls t (l.enter t (.submit j)) := by
  obtain ⟨-, hloaded, hloads, hinvocations⟩ := offer_frame l.worker j
  constructor
  · rw [enter, Worker.replies, hinvocations]
    exact h.replies
  · exact h.ready
  · intro c hc
    rw [enter, hloads]
    exact h.le c hc
  · rw [enter, hloaded, hloads]
    exact h.lt
  · exact h.pairwise

theorem takeUp (h : Calls t l) (hloads : Loads t l) (hup : TakesUp t l.worker j rest d x w) :
    Calls t (l.after d x w) := by
  have happend : (l.after d x w).calls = l.calls ++ x.calls := by simp [calls, after]
  rcases hup.calls_cases with ⟨hcalls, hinvocations, hunloaded, hle⟩ |
    ⟨v, r, hcalls, hinvocations, hloaded, hreply, hload, hcause⟩
  · rw [hcalls, List.append_nil] at happend
    constructor
    · rw [happend, Worker.replies]
      exact hinvocations ▸ h.replies
    · exact happend ▸ h.ready
    · rw [happend]
      exact fun c hc => (h.le c hc).trans hle
    · exact fun hloaded => absurd (hunloaded.symm.trans hloaded) Bool.false_ne_true
    · exact happend ▸ h.pairwise
  · rw [hcalls] at happend
    have hearlier : ∀ c ∈ l.calls, c.2.survives = false → c.1.load < w.loads := by
      intro c hc hbroke
      rcases hcause with ⟨hleft, hsame⟩ | ⟨hnext, -⟩
      · rw [hsame]
        exact h.lt hleft c hc hbroke
      · rw [hnext]
        exact Nat.lt_succ_of_le (h.le c hc)
    have hready : ∃ n, w.loads = n + 1 ∧ t.load n = .ready := by
      rcases hcause with ⟨hleft, hsame⟩ | ⟨hnext, hload⟩
      · rw [hsame]
        exact hloads.ready hleft
      · exact ⟨_, hnext, hload⟩
    have hcases {c : Invocation × Reply} (hc : c ∈ (l.after d x w).calls) :
        c ∈ l.calls ∨ c = (v, r) := by
      rwa [happend, List.mem_append, List.mem_singleton] at hc
    constructor
    · rw [happend, h.replies, hreply]
      exact (replies_append [v] hinvocations).symm
    · intro c hc
      rcases hcases hc with hc | rfl
      · exact h.ready c hc
      · rw [hload]
        exact hready
    · intro c hc
      rcases hcases hc with hc | rfl
      · rcases hcause with ⟨-, hsame⟩ | ⟨hnext, -⟩
        · exact (h.le c hc).trans_eq hsame.symm
        · exact (h.le c hc).trans (hnext ▸ Nat.le_succ _)
      · exact hload.le
    · intro hleft c hc hbroke
      rcases hcases hc with hc | rfl
      · exact hearlier c hc hbroke
      · exact absurd (hbroke.symm.trans (hloaded.symm.trans hleft)) Bool.false_ne_true
    · rw [happend, List.pairwise_append]
      refine ⟨h.pairwise, List.pairwise_singleton _ _, ?_⟩
      intro c hc c' hc' hbroke
      rw [List.mem_singleton.mp hc', hload]
      exact hearlier c hc hbroke

end Calls

theorem Reached.calls (h : Reached t l) : Calls t l := by
  induction h with
  | begin => exact ⟨rfl, nofun, nofun, nofun, .nil⟩
  | submit h j ih => exact ih.submit j
  | takeUp h hqueue hup ih => exact ih.takeUp h.loads hup

/-- As many requests as jobs are waiting empty the queue. -/
theorem queue_foldl_receive (t : Transformer) (n : Nat) (l : Ledger)
    (h : l.worker.queue.length ≤ n) :
    ((List.replicate n Action.receive).foldl (enter t) l).worker.queue = [] := by
  induction n generalizing l with
  | zero => exact List.length_eq_zero_iff.mp (Nat.le_zero.mp h)
  | succ n ih =>
      rw [List.replicate_succ, List.foldl_cons]
      apply ih
      cases hqueue : l.worker.queue with
      | nil => simp [enter_receive_of_nil t hqueue, hqueue]
      | cons j rest =>
          rw [hqueue, List.length_cons] at h
          rw [enter_receive_of_cons t hqueue]
          exact (takesUp t hqueue).length_queue_le.trans (Nat.le_of_succ_le_succ h)

/-- The responses of a worker answer the jobs it was given, one each, in their order and under their
numbers, up to the first job over which loading breaks down. They are well formed. Loading is tried
for the first job, and else exactly after a job that could not load the transformer or over which
it broke down. A job whose transformer was left or could be loaded leads to one call, any other to
none. There are no other attempts and calls, and a transformer that broke down is never called
again. -/
theorem protocol (t : Transformer) (actions : List Action) :
    let l := ofActions t actions
    (∃ ahead behind, l.offered = ahead ++ behind ∧
        l.responses.map Outcome.sequence = ahead.map Job.sequence ∧ l.Answering ahead behind) ∧
      (∀ o ∈ l.responses, o.WellFormed) ∧
      (∀ x, l.treated.head? = some x → x.loads ≠ []) ∧
      (l.treated.IsChain fun x y => y.loads ≠ [] ↔ x.LoadFailed ∨ x.CallBroke) ∧
      (∀ x ∈ l.treated, x.Proper) ∧
      l.treated.flatMap Treatment.loads = (List.range l.worker.loads).map t.load ∧
      l.calls = l.worker.replies t ∧
      (∀ c ∈ l.calls, ∃ n, c.1.load = n + 1 ∧ t.load n = .ready) ∧
      (l.calls.Pairwise fun c c' => c.2.survives = false → c.1.load < c'.1.load) ∧
      (ofActions t
        (actions ++ List.replicate l.worker.queue.length .receive)).worker.queue = [] := by
  intro l
  have hreached : Reached t l := reached_ofActions t actions
  have hloads := hreached.loads
  have hcalls := hreached.calls
  have hdrained := queue_foldl_receive t l.worker.queue.length l (Nat.le_refl _)
  refine ⟨hreached.answering, hreached.wellFormed, hloads.first, hloads.later, hreached.proper,
    hloads.attempts, hcalls.replies, hcalls.ready, hcalls.pairwise, ?_⟩
  rw [ofActions, List.foldl_append]
  exact hdrained

/-- A transformer that cannot be loaded at first, breaks down over every second call and breaks down
in the end while it is loaded. -/
def moody : Transformer where
  load n := if n = 0 then .failure "not found" else if n < 3 then .ready else .breakdown
  reply n c := if n % 2 = 0 then .generated ⟨c.code, none⟩ else .breakdown none
  time _ := .zero

/-- Seven jobs, which are then taken up one by one. -/
def sevenJobs : List Action :=
  ((List.range' 1 7).map fun n => .submit ⟨"a", "Demo.tsx", .null, n⟩) ++ List.replicate 7 .receive

example : ((ofActions moody sevenJobs).responses.map Outcome.sequence,
    (ofActions moody sevenJobs).treated.map fun x => (x.loads.length, x.calls.length),
    (ofActions moody sevenJobs).brokenOver.map Job.sequence) =
      ([1, 2, 3, 4, 5], [(1, 0), (1, 1), (0, 1), (1, 1), (0, 1), (1, 0)], [6]) := by
  decide

end Ledger

end Worker

end Provenance

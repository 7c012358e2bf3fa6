import Provenance.Transformer

/-!
# The compile worker

The worker answers jobs one at a time in the order in which they were submitted. It loads its
transformer for the first job, and again after a failed load or a breakdown. A breakdown
while loading ends the worker: neither that job nor one behind it is ever answered.

## Implementation notes

A job is carried out when its response is taken. What a job does depends only on the jobs
before it, so whether it was carried out earlier can be told in one way only: a worker that has
ended over a job refuses others at once, also while responses are still to be taken.
-/

namespace Provenance

/-- A call together with the number of the load that the called transformer came from. -/
structure Invocation where
  load : Nat
  call : Call

/-- The worker, with the jobs it has not answered, first the oldest. -/
structure Worker where
  queue : List Job
  alive : Bool
  loaded : Bool
  loads : Nat
  answered : Nat
  invocations : List Invocation

/-- The worker cannot take or answer jobs any more. -/
inductive WorkerError
  | closed
  deriving DecidableEq, Repr

/-- What is shown to the user. -/
def WorkerError.message : WorkerError → String
  | .closed => "Compile worker has shut down"

/-- What waiting for a response leads to. -/
inductive Delivery
  /-- No job is left to be answered. -/
  | waiting
  | outcome (o : Outcome)
  | closed
  deriving DecidableEq, Repr

namespace Worker

/-- A worker that has nothing to do yet. -/
def fresh : Worker := ⟨[], true, false, 0, 0, []⟩

/-- Line up a job. -/
def submit (w : Worker) (j : Job) : Except WorkerError Worker :=
  if w.alive then .ok { w with queue := w.queue ++ [j] } else .error .closed

/-- The worker after it has died. -/
def die (w : Worker) : Worker := { w with queue := [], alive := false, loaded := false }

/-- Answer a job, which is no longer in the queue. -/
def answer (w : Worker) (j : Job) (r : Response) : Delivery × Worker :=
  (.outcome (.ofResponse j.sequence r), { w with answered := w.answered + 1 })

/-- Note that the loaded transformer was called. -/
def record (w : Worker) (c : Call) : Worker :=
  { w with invocations := w.invocations ++ [Invocation.mk w.loads c] }

/-- Call the transformer for a job, which is no longer in the queue. -/
def call (t : Transformer) (w : Worker) (j : Job) : Delivery × Worker :=
  let reply := t.reply w.invocations.length (.ofJob j)
  let called := { w.record (.ofJob j) with loaded := reply.survives }
  called.answer j (reply.response (t.time w.answered))

/-- Carry out a job, which is no longer in the queue. -/
def carryOut (t : Transformer) (w : Worker) (j : Job) : Delivery × Worker :=
  if w.loaded then w.call t j
  else
    let attempted := { w with loads := w.loads + 1 }
    match t.load w.loads with
    | .ready => attempted.call t j
    | .failure message =>
      attempted.answer j ⟨none, some message, t.time w.answered, none⟩
    | .breakdown => (.closed, attempted.die)

/-- Take the next response. -/
def receive (t : Transformer) (w : Worker) : Delivery × Worker :=
  match w.queue with
  | [] => (if w.alive then .waiting else .closed, w)
  | j :: rest => { w with queue := rest }.carryOut t j

/-- Take responses until the one with the given number, at most `fuel` of them. -/
def receiveUntil (t : Transformer) (sequence : Nat) :
    Nat → Worker → Except WorkerError Outcome × Worker
  | 0, w => (.error .closed, w)
  | fuel + 1, w =>
    match w.receive t with
    | (.outcome o, w) =>
      if o.sequence = sequence then (.ok o, w) else receiveUntil t sequence fuel w
    | (_, w) => (.error .closed, w)

/-- Submit a job and wait for its own response, skipping those of earlier jobs. -/
def compile (t : Transformer) (w : Worker) (j : Job) : Except WorkerError Outcome × Worker :=
  match w.submit j with
  | .ok w => w.receiveUntil t j.sequence w.queue.length
  | .error e => (.error e, w)

end Worker

end Provenance

import Provenance.Settings
import Provenance.Worker

/-!
# Scheduling compilations

The scheduler turns edits into jobs. An edit starts a quiet period, and a further edit starts
it anew; only when it has passed is the current text submitted. Jobs are numbered from 1, and
only the outcome of the job submitted last is accepted.

## Implementation notes

The clock counts milliseconds and is moved by `Scheduler.advance` alone. What may happen by
itself are two things, the end of the quiet period (`Scheduler.fire?`) and the arrival of a
response (`Scheduler.receive?`); the order between them is left to whoever drives it.
-/

namespace Provenance

/-- Where the scheduler is between edits and outcomes. -/
inductive Activity
  | idle
  /-- A submission is scheduled. -/
  | pendingSubmit
  /-- The outcome of the latest job has not been accepted yet. -/
  | inFlight
  deriving DecidableEq, Repr

/-- Something that the scheduler did by itself. -/
inductive Event
  | submitted (sequence : Nat)
  /-- The outcome of the latest job was accepted. -/
  | completed (o : Outcome)
  /-- The outcome of an earlier job was dropped. -/
  | discarded (sequence : Nat)
  | workerClosed
  deriving DecidableEq, Repr

/-- The scheduler: the worker, what is to be compiled, the clock and what is under way. -/
structure Scheduler where
  worker : Worker
  debounce : Nat
  text : String
  fileName : String
  options : Json.Value
  now : Nat
  deadline : Option Nat
  next : Nat
  latest : Option Nat
  awaiting : Bool

namespace Scheduler

/-- A scheduler with a fresh worker and nothing to compile. -/
def ofSettings (settings : Settings) : Scheduler :=
  ⟨.fresh, settings.debounce, "", settings.fileName, settings.options, 0, none, 1, none, false⟩

/-- What the scheduler is doing. -/
def activity (s : Scheduler) : Activity :=
  if s.awaiting then .inFlight
  else if s.deadline.isSome then .pendingSubmit
  else .idle

/-- Start the quiet period. -/
def arm (s : Scheduler) : Scheduler := { s with deadline := some (s.now + s.debounce) }

def edit (s : Scheduler) (text : String) : Scheduler := { s with text := text }.arm

/-- Take a new file name. -/
def rename (s : Scheduler) (fileName : String) : Scheduler :=
  { s with fileName := fileName }.arm

/-- Take new options. -/
def setOptions (s : Scheduler) (options : Json.Value) : Scheduler :=
  { s with options := options }.arm

/-- The job that would be submitted now. -/
def job (s : Scheduler) : Job := ⟨s.text, s.fileName, s.options, s.next⟩

/-- Submit the current text. A number is used up even when the worker takes no jobs. -/
def submit (s : Scheduler) : Except WorkerError Nat × Scheduler :=
  match s.worker.submit s.job with
  | .ok worker =>
    (.ok s.next,
      { s with worker := worker, next := s.next + 1, latest := some s.next, awaiting := true })
  | .error e => (.error e, { s with next := s.next + 1 })

/-- Submit the current text without waiting for the end of the quiet period. -/
def compileNow (s : Scheduler) : Except WorkerError Nat × Scheduler :=
  { s with deadline := none }.submit

/-- Accept the outcome of the latest job; any other leaves no trace. -/
def accept (s : Scheduler) (o : Outcome) : Option Outcome × Scheduler :=
  if s.latest = some o.sequence then (some o, { s with awaiting := false }) else (none, s)

def advance (s : Scheduler) (milliseconds : Nat) : Scheduler :=
  { s with now := s.now + milliseconds }

def isDue (s : Scheduler) : Bool := s.deadline.any (· ≤ s.now)

/-- End the quiet period if it has passed. -/
def fire? (s : Scheduler) : Option (Event × Scheduler) :=
  if s.isDue then
    match s.compileNow with
    | (.ok sequence, s) => some (.submitted sequence, s)
    | (.error _, s) => some (.workerClosed, s)
  else
    none

/-- Take the next response of the worker, if there is one to be waited for. -/
def receive? (t : Transformer) (s : Scheduler) : Option (Event × Scheduler) :=
  match s.worker.receive t with
  | (.waiting, _) => none
  | (.closed, worker) => some (.workerClosed, { s with worker := worker })
  | (.outcome o, worker) =>
    match { s with worker := worker }.accept o with
    | (some o, s) => some (.completed o, s)
    | (none, s) => some (.discarded o.sequence, s)

/-- The next event, where the end of the quiet period comes before a response. -/
def nextEvent? (t : Transformer) (s : Scheduler) : Option (Event × Scheduler) :=
  s.fire?.or (s.receive? t)

end Scheduler

end Provenance

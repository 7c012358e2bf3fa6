import Provenance.Session

/-!
# Live sessions

A live session is driven through an inbox of commands and publishes every new view. Commands
are handled in the order in which they were sent, and after each command and each event the
published view is that of the session. The session ends when the worker is found closed, or
when the inbox has been closed and emptied.
-/

namespace Provenance

/-- A session with its inbox and the view that was published last. -/
structure LiveSession where
  session : Session
  inbox : List Command
  published : View
  /-- Number of views published so far. -/
  publications : Nat
  ended : Option (Except WorkerError Unit)

namespace LiveSession

/-- A session that has just begun to run. -/
def run (s : Session) : LiveSession := ⟨s, [], s.view, 1, none⟩

/-- The session still takes commands. -/
def isRunning (l : LiveSession) : Bool := l.ended.isNone

/-- Publish the view if it is not the published one. -/
def publish (l : LiveSession) : LiveSession :=
  if l.published = l.session.view then l
  else { l with published := l.session.view, publications := l.publications + 1 }

/-- Go on after a command or event: publish the view, or end if the worker is closed. -/
def proceed (l : LiveSession) : Except WorkerError Unit × Session → LiveSession
  | (.ok _, s) => { l with session := s }.publish
  | (.error e, s) => { l with session := s, ended := some (.error e) }

/-- Send a command; one that is sent after the end is lost. -/
def send (l : LiveSession) (c : Command) : LiveSession :=
  if l.isRunning then { l with inbox := l.inbox ++ [c] } else l

/-- Handle the oldest command of the inbox. -/
def takeCommand (l : LiveSession) : LiveSession :=
  match l.ended, l.inbox with
  | none, c :: rest => { l with inbox := rest }.proceed (l.session.handleCommand c)
  | _, _ => l

def advance (l : LiveSession) (milliseconds : Nat) : LiveSession :=
  { l with session := l.session.advance milliseconds }

/-- End the quiet period if it has passed. -/
def takeTimer (l : LiveSession) : LiveSession :=
  match l.ended, l.session.scheduler.fire? with
  | none, some (event, scheduler) =>
    l.proceed ({ l.session with scheduler := scheduler }.handleEvent event)
  | _, _ => l

/-- Handle the next response, if there is one to be waited for. -/
def takeResponse (t : Transformer) (l : LiveSession) : LiveSession :=
  match l.ended, l.session.scheduler.receive? t with
  | none, some (event, scheduler) =>
    l.proceed ({ l.session with scheduler := scheduler }.handleEvent event)
  | _, _ => l

/-- Handle all commands of the inbox, at most `fuel` of them. -/
def takeCommands : Nat → LiveSession → LiveSession
  | 0, l => l
  | fuel + 1, l => takeCommands fuel l.takeCommand

/-- Handle what can be handled without waiting: the commands, then the timer. -/
def catchUp (l : LiveSession) : LiveSession := (l.takeCommands l.inbox.length).takeTimer

/-- Handle responses as long as the published view shows a running compilation, at most `fuel`
of them. -/
def finishWithin (t : Transformer) : Nat → LiveSession → LiveSession
  | 0, l => l
  | fuel + 1, l =>
    if l.isRunning ∧ l.published.status.compiling then finishWithin t fuel (l.takeResponse t)
    else l

/-- Wait until the published view shows no running compilation. -/
def finish (t : Transformer) (l : LiveSession) : LiveSession :=
  l.finishWithin t (l.session.scheduler.worker.queue.length + 1)

/-- How the session has ended once its inbox is closed. -/
def result (l : LiveSession) : Except WorkerError Unit := l.ended.getD (.ok ())

end LiveSession

end Provenance

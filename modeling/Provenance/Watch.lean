import Provenance.CommandLine.Execution
import Provenance.LiveSession

/-!
# Watching a file

Every change of the watched file becomes an edit in a live session, and every new view is
printed as a line with the status and the runs that are highlighted. Changes of a file that
cannot be read are skipped, as are those of other files.

## Implementation notes

A change is noticed some time after it was made, so that several in a row count once. Nothing
happens between two steps of `Watch.progress?`: each handles what comes first, a response, a
change that is noticed, or the end of the quiet period.
-/

namespace Provenance

/-- A file that is being watched. -/
structure Watch where
  launch : Action.Launcher
  wording : Wording
  command : TransformCommand
  /-- The milliseconds that each run of the program takes. -/
  time : Nat → Binary64
  file : List String
  folder : Folder
  live : LiveSession
  /-- When the last change will be noticed. -/
  notice : Option Nat
  /-- Lines that were printed and not read. -/
  lines : List String

namespace Watch

/-- Milliseconds after which a change is noticed. -/
def noticeDelay : Nat := 50

/-- A run as it is printed. -/
def runText (r : Run) : String :=
  toString r.line ++ ":" ++ toString r.first ++ "-" ++ toString r.stop

/-- A view as it is printed. -/
def report (v : View) : String :=
  v.status.text ++
    v.highlight.elim "" fun h => " [" ++ ", ".intercalate (h.runs.map runText) ++ "]"

/-- The lines of a report. -/
def reportLines (v : View) : List String :=
  (Text.lines (report v).toList).map String.ofList

def now (w : Watch) : Nat := w.live.session.scheduler.now

/-- Go on with another state of the session, and print its view if it is new. -/
def update (w : Watch) (live : LiveSession) : Watch :=
  if w.live.publications < live.publications then
    { w with live := live, lines := w.lines ++ reportLines live.published }
  else { w with live := live }

/-- Begin to watch a file of a folder. -/
def start (launch : Action.Launcher) (wording : Wording) (plan : CommandLine.WatchPlan)
    (folder : Folder) (time : Nat → Binary64) : Watch :=
  let live := LiveSession.run (.start plan.settings Markup.plain plan.text)
  let w : Watch := {
    launch := launch
    wording := wording
    command := plan.command
    time := time
    file := (folder.locate plan.file).toOption.getD []
    folder := folder
    live := live
    notice := none
    lines := reportLines live.published
  }
  match plan.cursor with
  | some p => w.update (live.send (.moveCursor p)).catchUp
  | none => w

/-- Move the clock to a later time. -/
def waitUntil (w : Watch) (time : Nat) : Watch :=
  { w with live := w.live.advance (time - w.now) }

/-- Notice a change: the text of the file is edited in, if it can be read. -/
def noticeChange (w : Watch) : Watch :=
  let w := { w with notice := none }
  match (w.folder.lookup? w.file).map textOf with
  | some (.ok text) => w.update (w.live.send (.edit text)).catchUp
  | _ => w

/-- Go on with another folder; a change of the watched file will be noticed. -/
def enter (w : Watch) (folder : Folder) : Watch :=
  { w with
    folder := folder
    notice :=
      if w.folder.lookup? w.file = folder.lookup? w.file then w.notice
      else some (w.now + noticeDelay) }

/-- Take the next response: the program runs in the folder as it is now, and may change it. -/
def takeResponse (w : Watch) : Watch :=
  let job := w.live.session.scheduler.worker.queue.head?
  let (ended, folder) := w.launch w.folder w.command
    (job.elim [] fun j => TransformCommand.input (.ofJob j))
  let t := TransformCommand.transformer w.wording (fun _ _ => ended) w.time w.command
  (w.enter folder).update (w.live.takeResponse t)

/-- When something will happen by itself. -/
def nextTime? (w : Watch) : Option Nat :=
  match w.notice, w.live.session.scheduler.deadline with
  | some a, some b => some (min a b)
  | some a, none => some a
  | none, b => b

/-- Handle what comes next, if anything comes until the given time. -/
def progress? (w : Watch) (limit : Option Nat) : Option Watch :=
  if !w.live.isRunning then none
  else if w.live.session.scheduler.awaiting then
    some w.takeResponse
  else
    match w.nextTime? with
    | none => none
    | some time =>
      if limit.any (· < time) then none
      else
        let w := w.waitUntil time
        if w.notice = some time then some w.noticeChange else some (w.update w.live.takeTimer)

/-- Handle what comes until the given time, at most `fuel` things. -/
def proceed (limit : Nat) : Nat → Watch → Watch
  | 0, w => w
  | fuel + 1, w =>
    match w.progress? (some limit) with
    | some w => proceed limit fuel w
    | none => w

/-- The number of things that are handled before a line is given up. -/
def patience : Nat := 1000

def wait (w : Watch) (milliseconds : Nat) : Watch :=
  let limit := w.now + milliseconds
  (w.proceed limit patience).waitUntil limit

/-- Replace or add a file. -/
def write (w : Watch) (path : String) (text : String) : Watch :=
  let contents := Text.Utf8.encode text.toList
  match w.folder.write path contents with
  | .ok folder =>
    { w with
      folder := folder
      notice :=
        if (folder.locate path).toOption = some w.file then some (w.now + noticeDelay)
        else w.notice }
  | .error _ => w

def remove (w : Watch) (path : String) : Watch :=
  match w.folder.locate path with
  | .ok file =>
    { w with
      folder := w.folder.remove file
      notice := if file = w.file then some (w.now + noticeDelay) else w.notice }
  | .error _ => w

/-- The line says that a compilation is running. -/
def isTransient (line : String) : Bool := line.startsWith "Compiling"

/-- Read lines up to the first that says how things stand and satisfies a property; `none` if
no such line comes. -/
def readLine (p : String → Bool) : Nat → Watch → Option String × Watch
  | 0, w => (none, w)
  | fuel + 1, w =>
    match w.lines.dropWhile fun l => isTransient l || !p l with
    | line :: rest => (some line, { w with lines := rest })
    | [] =>
      match { w with lines := [] }.progress? none with
      | some w => readLine p fuel w
      | none => (none, { w with lines := [] })

/-- Read lines up to the first that contains a text. -/
def readUntil (w : Watch) (text : String) : Option String × Watch :=
  w.readLine (fun line => (line.splitOn text).length > 1 || text.isEmpty) patience

/-- The word is a measured time. -/
def isTime (word : String) : Bool :=
  match word.toList.reverse with
  | 's' :: 'm' :: digits => digits ≠ [] && digits.all Char.isDigit
  | _ => false

/-- The words of a line without the last that is a measured time. -/
def dropTime (words : List String) : List String :=
  let (after, rest) := words.reverse.span fun w => !isTime w
  match rest with
  | _ :: before => before.reverse ++ after.reverse
  | [] => words

/-- A line without the time that the compilation took. -/
def withoutTime (line : String) : String := " ".intercalate (dropTime (line.splitOn " "))

end Watch

end Provenance

import Provenance.Shell.Launch
import Provenance.Watch

/-!
# The command line

Performs tasks on the files of the system. How programs are run is left to whoever performs a task;
the command line itself runs those of the shell in this library. Everything is decided elsewhere;
this module reads, writes and waits.
-/

namespace Provenance.Main

open Provenance

/-- The error of the system as one of the library. -/
def osError : IO.Error → OsError
  | .noFileOrDirectory .. => .noEntry
  | .permissionDenied .. => .denied
  | .inappropriateType .. => .isDirectory
  | e => .other e.toString none

/-- Try to use a file. -/
def attempt {α : Type} (act : IO α) : IO (Except OsError α) := do
  match ← act.toBaseIO with
  | .ok a => return .ok a
  | .error e => return .error (osError e)

/-- Perform an action on the files of the system, of which programs see none. -/
def perform {α : Type} (launch : Action.Launcher) : Action α → IO α
  | .done a => return a
  | .read path next => do
    let r ← attempt (IO.FS.readBinFile path)
    perform launch (next (r.map ByteArray.toList))
  | .write path contents next => do
    let r ← attempt (IO.FS.writeBinFile path ⟨contents.toArray⟩)
    perform launch (next r)
  | .execute command input next => do
    let start ← IO.monoMsNow
    let (ended, _) := launch .empty command input
    let stop ← IO.monoMsNow
    perform launch (next (.ofNat (stop - start)) ended)

/-- Print how a task has ended. -/
def finish (e : CommandLine.Exit) : IO UInt32 := do
  (← IO.getStdout).putStr e.out
  (← IO.getStderr).putStr (e.err true)
  return UInt32.ofNat e.code

/-- The name by which a watched file is known. -/
def watched : String := "watched"

/-- Print what is new, and look at the file from time to time. -/
partial def follow (path : String) (known : Option String) (w : Watch) : IO UInt32 := do
  for line in w.lines do IO.println line
  let w := { w with lines := [] }
  if !w.live.isRunning then return 1
  IO.sleep 50
  let found := (← attempt (IO.FS.readFile path)).toOption
  let w := match found with
    | some text => if found = known then w else w.write watched text
    | none => w
  follow path (found.or known) (w.wait 50)

/-- Watch a file until the program is interrupted. -/
def watch (launch : Action.Launcher) (wording : Wording) (task : CommandLine.WatchTask) :
    IO UInt32 := do
  match ← perform launch (CommandLine.prepareWatch wording task).run with
  | .error f => finish (.failure f)
  | .ok plan =>
    let folder := (Folder.empty.write watched (Text.Utf8.encode plan.text.toList)).toOption
    let start := Watch.start launch wording { plan with file := watched } (folder.getD .empty)
      fun _ => .ofNat 1
    follow task.file (some plan.text) start

/-- Carry out the task that the arguments ask for. -/
def run (launch : Action.Launcher) (wording : Wording) (args : List String) : IO UInt32 := do
  match CommandLine.Task.ofArguments? args with
  | none => finish CommandLine.usageExit
  | some (.watch task) => watch launch wording task
  | some task => finish (← perform launch (task.action wording))

/-- The readers of this library say no more than what they have refused. -/
def wording : Wording where
  map _ := "not a source map"
  reply _ := "not a reply"
  settings _ := "not a configuration"

end Provenance.Main

open Provenance in
def main (args : List String) : IO UInt32 := Main.run Shell.start Main.wording args

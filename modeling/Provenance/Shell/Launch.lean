import Provenance.Action
import Provenance.Shell.Evaluation

/-!
# Starting programs

A program is started in a folder with some input. All that it writes is collected, and the
folder is left as the program leaves it.
-/

namespace Provenance.Shell

open Effect

/-- The depth to which scripts are carried out. -/
def depthLimit : Nat := 20000

/-- The number of the first process. -/
def firstProcess : Nat := 4711

/-- What a program finds in its environment. -/
def environmentAtStart : List (Octets × Variable) :=
  [("HOME".toList, "/root".toList), ("PATH".toList, usualSearchPath),
    ("PWD".toList, "/work".toList)].map fun (name, value) => (name, ⟨some value, true, false⟩)

/-- The process in which a program is started. -/
def processAtStart (name : Octets) : Process where
  number := firstProcess
  shell := firstProcess
  ancestors := []
  name := name
  arguments := []
  bindings := environmentAtStart
  functions := []
  aliases := []
  streams := [(0, 0), (1, 1), (2, 2)]
  options := []
  status := 0
  outputStatus := 0
  background := none
  children := []
  found := []
  limits := []
  line := 0
  command := none
  traps := []
  place := .at []
  saved := []
  loops := 0
  optionIndex := 1
  letter := 0
  leaving := none
  outputFailed := false
  mask := 18

/-- The machine on which a program is started: its input, its output and its complaints are
pipes. -/
def machineAtStart (folder : Folder) (name input : Octets) : Machine where
  world := {
    folder := folder
    pipes := #[.holding input, .holding [], .holding []]
    opened := #[⟨.pipe 0, 0, false, true, false⟩, ⟨.pipe 1, 0, false, false, true⟩,
      ⟨.pipe 2, 0, false, false, true⟩]
    documents := []
    nextDocument := 0
    nextProcess := firstProcess + 1
    signals := []
    waiting := []
    ended := [] }
  process := processAtStart name

/-- Run a program in a folder. -/
def launch (folder : Folder) (program : Program) (name : Octets) (args : List Octets)
    (input : Octets) : Ended × Folder :=
  let body : Effect Unit := do
    let status ← runProgram depthLimit program name args
    throw (.replaced status)
  let run : Effect ExitStatus := do conclude depthLimit (← observe body)
  let (r, m) := run.run (machineAtStart folder name input)
  let status := match r with
    | .ok status => status
    | .error _ => .exited 2
  let written (index : Nat) : List UInt8 :=
    ((m.world.pipes[index]?.map Pipe.contents).getD []).toBytes
  (⟨status, written 1, written 2, none⟩, m.world.folder)

/-- Length in bytes from which on an argument cannot be passed on. -/
def argumentLimit : Nat := 2 ^ 17

/-- Try to start a program in a folder. A file that is no program may not be executed. -/
def tryStart (folder : Folder) (command : TransformCommand) (input : List UInt8) :
    Except OsError (Ended × Folder) :=
  let name := Octets.ofText command.program
  let args := command.args.map Octets.ofText
  if (name :: args).any (·.contains '\x00') then .error .zeroByte
  else if !name.contains '/' ∧ Folder.nameLimit < name.length then .error .nameTooLong
  else
    match Program.locate folder (.at []) none name with
    | .ok (_, program) =>
      if args.any (argumentLimit ≤ ·.length) then .error .argumentsTooLong
      else .ok (launch folder program name args (Octets.ofBytes input))
    | .error _ =>
      if name = [] then .error .noEntry
      else if name = ['.'] ∨ name = ['.', '.'] then .error .denied
      else if name.contains '/' then
        match folder.resolve command.program with
        | .ok (.vacant _) => .error .noEntry
        | .ok _ => .error .denied
        | .error e => .error e
      else .error .noEntry

/-- Run a program in a folder, which stays as it is if the program does not start. -/
def start : Action.Launcher := fun folder command input =>
  match tryStart folder command input with
  | .ok (ended, left) => (.ok ended, left)
  | .error cause => (.error (.notStarted cause), folder)

/-- Programs run in a folder whose changes are lost. -/
def host (folder : Folder) : Host := fun command input => (start folder command input).1

end Provenance.Shell

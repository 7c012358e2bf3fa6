import Provenance.Action
import Provenance.CommandLine.Failure
import Provenance.CommandLine.Task
import Provenance.Focus
import Provenance.Status
import Provenance.Worker

/-!
# Carrying out tasks

Each task is an action that leads to an exit code, a text for the output and notes for the
error output. A compilation prints its code only after everything else has gone well.
-/

namespace Provenance.CommandLine

open Provenance.Json (Value)

/-- The version that is reported. -/
def version : String := "inspector 0.1.0"

/-- How important a log line is. -/
inductive Level
  | info
  | warn
  deriving DecidableEq, Repr

/-- A line of the error output. -/
inductive Note
  | plain (text : String)
  | log (level : Level) (text : String)
  deriving DecidableEq, Repr

namespace Note

/-- The part of the program that log lines come from. -/
def logSource : String := "inspector::commands::compile"

def text : Note → String
  | .plain text => text
  | .log .info text => "INFO " ++ logSource ++ ": " ++ text
  | .log .warn text => "WARN " ++ logSource ++ ": " ++ text

/-- The note is shown: log lines only if logging is on. -/
def isShown (logging : Bool) : Note → Bool
  | .plain _ => true
  | .log _ _ => logging

end Note

/-- How a task has ended. -/
structure Exit where
  code : Nat
  out : String
  notes : List Note
  deriving DecidableEq, Repr

namespace Exit

/-- The end of a task that has printed a text. -/
def success (out : String) : Exit := ⟨0, out, []⟩

/-- The end of a task that cannot be done. -/
def failure (f : Failure) : Exit := ⟨1, "", [.plain f.report]⟩

/-- The error output. -/
def err (logging : Bool) (e : Exit) : String :=
  String.join ((e.notes.filter (·.isShown logging)).map fun n => n.text ++ "\n")

end Exit

/-- An action that may fail. -/
abbrev Attempt := ExceptT Failure Action

/-- A value, or the failure that an error means. -/
def attempt {ε α : Type} (failure : ε → Failure) (r : Except ε α) : Attempt α :=
  ExceptT.mk (.done (r.mapError failure))

/-- Read the text of a file. -/
def readText (path : String) (failure : OsError → Failure) : Attempt String := do
  attempt failure (← Action.readText path)

/-- The end of a task that may fail. -/
def exitOf (a : Attempt Exit) : Action Exit := do
  match ← a.run with
  | .ok e => return e
  | .error f => return .failure f

def loadAtlas (wording : Wording) (path : String) : Attempt Atlas := do
  let json ← readText path (.mapUnreadable path)
  attempt (.mapInvalid path) (Atlas.ofJson wording json)

/-- Load the settings, or take the defaults where no file is named. -/
def loadSettings (wording : Wording) : Option String → Attempt Settings
  | none => return .default
  | some path => do
    let toml ← readText path (.settingsUnreadable path)
    match Settings.ofToml? toml with
    | some settings => return settings
    | none => throw (.settingsInvalid (wording.settings toml))

/-- The program to run. -/
def chooseCommand (settings : Settings) (given : List String) : Except Failure TransformCommand :=
  match settings.commandFor? given with
  | some command => .ok command
  | none => .error .noTransform

/-- A position as JSON, with its keys in order. -/
def positionValue (p : Position) : Value :=
  .object [("column", .word p.column), ("line", .word p.line)]

/-- Where a source position has gone. -/
def forwardValue (a : Atlas) (source : String) (p : Position) : Value :=
  .option positionValue ((a.resolve? source).bind fun id => a.forward? id p)

/-- Where a generated position comes from. -/
def reverseValue (a : Atlas) (p : Position) : Value :=
  .option id do
    let segment ← a.segment? p
    let place ← segment.origin
    return .object [("column", .word place.column), ("line", .word place.line),
      ("name", .option .string (segment.name.bind a.name?)),
      ("source", .option .string (a.source? place.source))]

/-- A run as JSON, with its keys in order. -/
def runValue (r : Run) : Value :=
  .object [("endColumn", .word r.stop), ("line", .word r.line), ("startColumn", .word r.first)]

/-- The runs that a generated line comes from. -/
def lineValue (a : Atlas) (generated : String) (line : UInt32) : Value :=
  let length := ((LineLayout.ofText generated).lineLength? line).getD 0
  .list runValue (Run.coalesce (a.lineOrigins line length))

/-- A highlight as JSON, where the keys have an order of their own. -/
def highlightValue (h : Option Highlight) : Value :=
  .object [("generatedLine", .option (fun h => .word h.line) h),
    ("originalRanges", .option (fun h => .list (fun r => .object [("line", .word r.line),
      ("startColumn", .word r.first), ("endColumn", .word r.stop)]) h.runs) h)]

def printed (v : Value) : Exit := .success (v.pretty ++ "\n")

/-- Show the highlight of a cursor. -/
def highlight (wording : Wording) (map generated source : String) (cursor : Position) :
    Attempt Exit := do
  let atlas ← loadAtlas wording map
  let code ← readText generated (.generatedUnreadable generated)
  let focus := ((Focus.ofName source).install (some atlas) code).moveTo cursor
  return printed (highlightValue focus.highlight)

/-- Run the program for a job, through a worker. -/
def compileJob (wording : Wording) (command : TransformCommand) (job : Job) :
    Action (Except WorkerError Outcome) :=
  .execute command (TransformCommand.input (.ofJob job)) fun time ended =>
    let t := TransformCommand.transformer wording (fun _ _ => ended) (fun _ => time) command
    .done (Worker.fresh.compile t job).1

/-- The map that a payload carries, and what is to be logged about it. -/
def inspectMap (wording : Wording) : Option MapPayload → Option SourceMap × List Note
  | none => (none, [])
  | some payload =>
    match payload.sourceMap? with
    | none =>
      let e := MapError.json (wording.map payload.json)
      (none, [.log .warn ("Ignoring malformed source map error=" ++ e.message)])
    | some m =>
      match Atlas.ofSourceMap m with
      | .ok a => (some m, [.log .info ("Source map decoded segments=" ++ toString a.segments.size)])
      | .error e =>
        (some m, [.log .warn ("Source map segments are malformed error=" ++ e.message)])

/-- The line that reports a successful compilation. -/
def successLine (elapsed : Binary64) (mapped : Bool) : String :=
  "Success " ++ Status.milliseconds elapsed ++ "ms" ++ (if mapped then "" else " (no source map)")

/-- Write the map where it is wanted: what this adds to the output and to the error output. -/
def writeMap (path : Option String) (map : Option SourceMap) : Attempt (String × String) := do
  match path, map with
  | some path, some m =>
    match Folder.stream? path with
    | none =>
      attempt (.notWritten path) (← Action.writeText path m.toJson)
      return ("", "")
    | some 1 => return (m.toJson, "")
    | some 2 => return ("", m.toJson)
    | some _ => return ("", "")
  | _, _ => return ("", "")

/-- Report the outcome of a compilation. -/
def reportOutcome (wording : Wording) (mapOut : Option String) (o : Outcome) : Action Exit := do
  match o.diagnostic with
  | some diagnostic =>
    return ⟨1, "", [.plain ("Failed: " ++ diagnostic), .plain Failure.transformFailed.report]⟩
  | none =>
    let (map, notes) := inspectMap wording o.map
    match ← (writeMap mapOut map).run with
    | .error f => return ⟨1, "", notes ++ [.plain f.report]⟩
    | .ok (out, err) =>
      return ⟨0, out ++ o.generated.getD "" ++ "\n",
        notes ++ [.plain (err ++ successLine o.elapsed map.isSome)]⟩

/-- Compile a file once. -/
def compile (wording : Wording) (task : CompileTask) : Attempt Exit := do
  let settings ← loadSettings wording task.settings
  let command ← attempt id (chooseCommand settings task.command)
  let text ← readText task.file (.fileUnreadable task.file)
  let outcome ← compileJob wording command ⟨text, settings.fileName, settings.options, 1⟩
  match outcome with
  | .ok o => reportOutcome wording task.mapOut o
  | .error e => return ⟨1, "", [.plain ("Error: " ++ e.message)]⟩

/-- What watching a file begins with. -/
structure WatchPlan where
  settings : Settings
  command : TransformCommand
  file : String
  text : String
  cursor : Option Position

/-- Prepare to watch a file. The settings and the program come before the file. -/
def prepareWatch (wording : Wording) (task : WatchTask) : Attempt WatchPlan := do
  let settings ← loadSettings wording task.settings
  let command ← attempt id (chooseCommand settings task.command)
  let text ← readText task.file fun e =>
    match e with
    | .isDirectory | .invalidText => .fileUnreadable task.file e
    | e => .unresolved task.file e
  return ⟨settings, command, task.file, text, task.cursor⟩

/-- Carry out a task that ends by itself. Watching is only prepared. -/
def Task.action (wording : Wording) : Task → Action Exit
  | .version => .done (.success (CommandLine.version ++ "\n"))
  | .forward map source p => exitOf do
    return printed (forwardValue (← loadAtlas wording map) source p)
  | .reverse map p => exitOf do
    return printed (reverseValue (← loadAtlas wording map) p)
  | .line map generated n => exitOf do
    let atlas ← loadAtlas wording map
    let code ← readText generated (.generatedUnreadable generated)
    return printed (lineValue atlas code n)
  | .highlight map generated source cursor =>
    exitOf (CommandLine.highlight wording map generated source cursor)
  | .compile task => exitOf (CommandLine.compile wording task)
  | .watch task => exitOf do
    let _ ← prepareWatch wording task
    return .success ""

/-- The end of a command line that asks for nothing that can be done. -/
def usageExit : Exit := ⟨2, "", []⟩

end Provenance.CommandLine

import Provenance.Shell.Tool.Named
import Provenance.Shell.Tool.Starting

/-!
# Programs

Where a program is found by its name, and what kind of program it is.
-/

namespace Provenance.Shell

inductive Program
  | tool (t : Tool)
  /-- A tool that takes its time. -/
  | pause (t : Tool)
  | shell
  /-- A program that starts others. -/
  | starter (plan : Call → Plan.Outcome)
  /-- A program that tells where others are. -/
  | finder

namespace Program

def named? (name : String) : Option Program :=
  match name with
  | "sh" | "dash" => some .shell
  | "sleep" => (Tool.named? name).map .pause
  | "env" => some (.starter Plan.env)
  | "xargs" => some (.starter Plan.xargs)
  | "timeout" => some (.starter Plan.timeout)
  | "nice" => some (.starter (Plan.direct "n" 0))
  | "nohup" | "setsid" => some (.starter (Plan.direct "" 0))
  | "stdbuf" => some (.starter (Plan.direct "ioe" 0))
  | "which" => some .finder
  | name => (Tool.named? name).map .tool

/-- The directories that hold the programs. -/
def directories : List String := ["/usr/bin", "/bin"]

/-- Cut a path before its last component. -/
def cutPath (path : Octets) : Octets × Octets :=
  let name := (path.reverse.takeWhile (· ≠ '/')).reverse
  (path.take (path.length - name.length - 1), name)

/-- Find a program by its name or path: its path and the program, or a status and the reason why it
cannot be carried out. -/
def locate (f : Folder) (place : Directory) (path : Option Octets) (name : Octets) :
    Except (Nat × Octets) (Octets × Program) :=
  let missing : Nat × Octets := (127, "not found".toList)
  if name.contains '/' then
    let (directory, base) := cutPath name
    match directories.contains (String.ofList directory), named? (String.ofList base) with
    | true, some program => .ok (name, program)
    | _, _ =>
      match f.resolveFrom place name.toText with
      | .ok (.vacant _) | .error .noEntry | .error .notDirectory => .error missing
      | .error .nameTooLong => .error (127, OsError.nameTooLong.reason.toList)
      | _ => .error (126, OsError.denied.reason.toList)
  else if name = [] ∨ name = ['.'] ∨ name = ['.', '.'] then
    .error (127, OsError.denied.reason.toList)
  else
    let searched := (path.elim directories fun p => (Octets.splitAt ':' p).map String.ofList)
    match searched.find? directories.contains, named? (String.ofList name) with
    | some directory, some program => .ok (directory.toList ++ ['/'] ++ name, program)
    | _, _ => .error missing

/-- What a tool says about output that cannot be written, and its status. -/
def writeFailure (name : Octets) (e : OsError) : List Octets × Nat :=
  let line (text : String) : Octets := name ++ ": ".toList ++ text.toList ++ ['\n']
  match String.ofList (cutPath name).2 with
  | "sed" => ([line ("couldn\x27t flush stdout: " ++ e.reason)], 4)
  | "grep" => ([line ("write error: " ++ e.reason)], 2)
  | "sort" =>
    ([line ("fflush failed: \x27standard output\x27: " ++ e.reason), line "write error"], 2)
  | _ => ([line ("write error: " ++ e.reason)], 1)

end Program

end Provenance.Shell

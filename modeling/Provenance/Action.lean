import Provenance.CommandTransform
import Provenance.Folder

/-!
# Actions

An action reads and writes files and runs programs, and goes on depending on how that ends.
What it does to a folder is a function (`Action.perform`); the same action can be performed
on the files of a system.
-/

namespace Provenance

/-- A course of action that leads to a result. -/
inductive Action (α : Type) where
  | done (a : α)
  | read (path : String) (next : Except OsError (List UInt8) → Action α)
  | write (path : String) (contents : List UInt8) (next : Except OsError Unit → Action α)
  /-- Run a program; `next` is also told how many milliseconds this took. -/
  | execute (command : TransformCommand) (input : List UInt8)
      (next : Binary64 → Except RunError Ended → Action α)

namespace Action

/-- Go on after an action. -/
def bind {α β : Type} (a : Action α) (f : α → Action β) : Action β :=
  match a with
  | .done a => f a
  | .read path next => .read path fun r => (next r).bind f
  | .write path contents next => .write path contents fun r => (next r).bind f
  | .execute command input next => .execute command input fun time r => (next time r).bind f

instance : Monad Action where
  pure := .done
  bind := Action.bind

/-- Read the text of a file. -/
def readText (path : String) : Action (Except OsError String) :=
  .read path fun r => .done (r.bind textOf)

/-- Write a text to a file. -/
def writeText (path text : String) : Action (Except OsError Unit) :=
  .write path (Text.Utf8.encode text.toList) .done

/-- How programs are run in a folder: they may change it, however they end. -/
abbrev Launcher := Folder → (command : TransformCommand) → (input : List UInt8) →
  Except RunError Ended × Folder

/-- Perform an action in a folder, where each program takes the given time. -/
def perform {α : Type} (launch : Launcher) (time : Binary64) : Action α → Folder → α × Folder
  | .done a, folder => (a, folder)
  | .read path next, folder => (next (folder.read path)).perform launch time folder
  | .write path contents next, folder =>
    match folder.write path contents with
    | .ok folder => (next (.ok ())).perform launch time folder
    | .error e => (next (.error e)).perform launch time folder
  | .execute command input next, folder =>
    let (ended, folder) := launch folder command input
    (next time ended).perform launch time folder

end Action

end Provenance

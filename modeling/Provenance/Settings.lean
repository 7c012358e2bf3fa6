import Provenance.Toml.Document

/-!
# Settings

What a session is configured with: the name of the file, the quiet period after an edit, the
language of both panes, options for the transform and the program that performs it. Settings
are read from TOML, where every key may be missing and unknown keys are skipped.
-/

namespace Provenance

open Provenance.Toml (Value)

/-- An external program with its arguments. -/
structure TransformCommand where
  program : String
  args : List String
  deriving DecidableEq, Repr

/-- Settings of a session. The quiet period is in milliseconds. -/
structure Settings where
  fileName : String
  debounce : Nat
  language : String
  options : Json.Value
  transform : Option TransformCommand

namespace Settings

/-- The settings used where nothing else is said. -/
def default : Settings := ⟨"Demo.tsx", 500, "tsx", .object [], none⟩

def text? : Value → Option String
  | .string s => some s
  | _ => none

def natural? : Value → Option Nat
  | .integer n => if 0 ≤ n then some n.toNat else none
  | _ => none

def texts? : Value → Option (List String)
  | .array items => items.mapM text?
  | _ => none

/-- A command, written as a table or as an array of its fields. -/
def command? : Value → Option TransformCommand
  | .table members => do
    let program ← (members.lookup "program").bind text?
    let args ← ((members.lookup "args").map texts?).getD (some [])
    return ⟨program, args⟩
  | .array (program :: rest) => do
    let program ← text? program
    let args ← (rest.head?.map texts?).getD (some [])
    return ⟨program, args⟩
  | _ => none

/-- Read a key that may be missing. -/
def field? {α : Type} (members : List (String × Value)) (key : String) (absent : α)
    (read : Value → Option α) : Option α :=
  match members.lookup key with
  | some v => read v
  | none => some absent

/-- Read settings from the text of a TOML document. -/
def ofToml? (text : String) : Option Settings := do
  let members ← Toml.Document.parse? text
  let fileName ← field? members "file_name" default.fileName text?
  let debounce ← field? members "debounce_ms" default.debounce natural?
  let language ← field? members "language" default.language text?
  let options ← field? members "plugin_options" default.options (some ·.toJson)
  let transform ← field? members "transform" none fun v => (command? v).map some
  return ⟨fileName, debounce, language, options, transform⟩

/-- The command to run: one given with its arguments wins over the settings. -/
def commandFor? (s : Settings) : List String → Option TransformCommand
  | program :: args => some ⟨program, args⟩
  | [] => s.transform

end Settings

end Provenance

import Provenance.CommandLine.Arguments
import Provenance.Position.Reading

/-!
# Tasks

What the command line asks for. Arguments that ask for nothing that can be done are refused
as a whole, without saying why.
-/

namespace Provenance.CommandLine

/-- A compilation: the file, the settings, where to write the map, and the program to run. -/
structure CompileTask where
  file : String
  settings : Option String
  mapOut : Option String
  command : List String
  deriving DecidableEq, Repr

/-- Watching a file: the file, the settings, the cursor, and the program to run. -/
structure WatchTask where
  file : String
  settings : Option String
  cursor : Option Position
  command : List String
  deriving DecidableEq, Repr

/-- What the command line asks for. -/
inductive Task
  | version
  | forward (map source : String) (position : Position)
  | reverse (map : String) (position : Position)
  | line (map generated : String) (line : UInt32)
  | highlight (map generated source : String) (cursor : Position)
  | compile (task : CompileTask)
  | watch (task : WatchTask)
  deriving DecidableEq, Repr

namespace Task

/-- A path, which is not empty. -/
def path? (text : String) : Option String := if text = "" then none else some text

/-- A word of 32 bits with an optional sign. -/
def word? (text : String) : Option UInt32 :=
  let (negative, digits) := match text.toList with
    | '+' :: ds => (false, ds)
    | '-' :: ds => (true, ds)
    | ds => (false, ds)
  match digits with
  | [] => none
  | ds =>
    match Text.readDigits 4294967295 0 ds with
    | .ok n => if negative ∧ n ≠ 0 then none else some (UInt32.ofNat n)
    | .error _ => none

/-- A cursor position. -/
def cursor? (text : String) : Option Position := (Position.read text).toOption

/-- An option that must be given. -/
def required {α : Type} (a : Arguments) (name : String) (read : String → Option α) : Option α :=
  (a.options.lookup name).bind read

/-- An option that may be missing. -/
def optional {α : Type} (a : Arguments) (name : String) (read : String → Option α) :
    Option (Option α) :=
  match a.options.lookup name with
  | some text => (read text).map some
  | none => some none

/-- Arguments that are options only. -/
def optionsOnly (known args : List String) : Option Arguments := do
  let a ← Arguments.read known args
  if a.operands = [] ∧ a.trailing.getD [] = [] then some a else none

/-- Arguments with one operand, which is a path. -/
def withFile (known args : List String) : Option (String × Arguments) := do
  let a ← Arguments.read known args
  match a.operands with
  | [file] => return (← path? file, a)
  | _ => none

/-- Read the arguments of a query to a map. -/
def query? : List String → Option Task
  | "forward" :: args => do
    let a ← optionsOnly ["map", "source", "line", "column"] args
    let map ← required a "map" path?
    let source ← required a "source" some
    let line ← required a "line" word?
    let column ← required a "column" word?
    return .forward map source ⟨line, column⟩
  | "reverse" :: args => do
    let a ← optionsOnly ["map", "line", "column"] args
    let map ← required a "map" path?
    let line ← required a "line" word?
    let column ← required a "column" word?
    return .reverse map ⟨line, column⟩
  | "line" :: args => do
    let a ← optionsOnly ["map", "generated", "line"] args
    let map ← required a "map" path?
    let generated ← required a "generated" path?
    let line ← required a "line" word?
    return .line map generated line
  | _ => none

/-- The source that is asked about where none is named. -/
def defaultSource : String := "Demo.tsx"

/-- Read the arguments of the command line. -/
def ofArguments? : List String → Option Task
  | "map" :: args => query? args
  | "highlight" :: args => do
    let a ← optionsOnly ["map", "generated", "source", "cursor"] args
    let map ← required a "map" path?
    let generated ← required a "generated" path?
    let source ← optional a "source" some
    let cursor ← required a "cursor" cursor?
    return .highlight map generated (source.getD defaultSource) cursor
  | "compile" :: args => do
    let (file, a) ← withFile ["config", "map-out"] args
    let settings ← optional a "config" path?
    let mapOut ← optional a "map-out" path?
    return .compile ⟨file, settings, mapOut, a.trailing.getD []⟩
  | "watch" :: args => do
    let (file, a) ← withFile ["config", "cursor"] args
    let settings ← optional a "config" path?
    let cursor ← optional a "cursor" cursor?
    return .watch ⟨file, settings, cursor, a.trailing.getD []⟩
  | "--version" :: _ => some .version
  | arg :: _ => if ['-', 'V'].isPrefixOf arg.toList then some .version else none
  | [] => none

end Task

end Provenance.CommandLine

import Provenance.Atlas
import Provenance.Os
import Provenance.Text.Lines

/-!
# Failures

Why a task cannot be done, as it is reported: what was attempted, and below it the causes,
each the cause of the one before. Several causes are numbered.
-/

namespace Provenance.CommandLine

/-- Why a task cannot be done. -/
inductive Failure
  | mapUnreadable (path : String) (cause : OsError)
  | mapInvalid (path : String) (cause : MapError)
  | generatedUnreadable (path : String) (cause : OsError)
  | settingsUnreadable (path : String) (cause : OsError)
  | settingsInvalid (wording : String)
  | noTransform
  | fileUnreadable (path : String) (cause : OsError)
  | unresolved (path : String) (cause : OsError)
  | notWritten (path : String) (cause : OsError)
  | transformFailed
  deriving DecidableEq, Repr

namespace Failure

/-- What was attempted. -/
def message : Failure → String
  | .mapUnreadable path _ => "Failed to read source map " ++ path
  | .mapInvalid path _ => "Invalid source map " ++ path
  | .generatedUnreadable path _ => "Failed to read generated code " ++ path
  | .settingsUnreadable path cause =>
    "Failed to read config file " ++ path ++ ": " ++ cause.message
  | .settingsInvalid wording => "Failed to parse config: " ++ wording
  | .noTransform => "No transform given; pass one after `--` or set [transform] in the config"
  | .fileUnreadable path _ => "Failed to read " ++ path
  | .unresolved path _ => "Failed to resolve " ++ path
  | .notWritten path _ => "Failed to write " ++ path
  | .transformFailed => "Transform failed"

/-- The causes of a map error, the map error included. -/
def mapCauses (e : MapError) : List String :=
  match e with
  | .json wording => [e.message, wording]
  | .mappings cause => [e.message, cause.message]
  | e => [e.message]

/-- The causes, each of the one before. -/
def causes : Failure → List String
  | .mapUnreadable _ cause => [cause.message]
  | .mapInvalid _ cause => mapCauses cause
  | .generatedUnreadable _ cause => [cause.message]
  | .settingsUnreadable _ cause => [cause.message]
  | .settingsInvalid wording => [wording]
  | .noTransform => []
  | .fileUnreadable _ cause => [cause.message]
  | .unresolved _ cause => [cause.message]
  | .notWritten _ cause => [cause.message]
  | .transformFailed => []

/-- The lines of a cause, behind a margin that is `first` on the first of them. -/
def indented (first margin cause : String) : List String :=
  match (Text.lines cause.toList).map String.ofList with
  | [] => []
  | line :: rest => (first ++ line) :: rest.map (margin ++ ·)

/-- Causes with their numbers, right-aligned in five columns. -/
def numbered (first : Nat) : List String → List String
  | [] => []
  | cause :: rest =>
    let number := toString first
    indented ("".pushn ' ' (5 - number.length) ++ number ++ ": ") "       " cause ++
      numbered (first + 1) rest

def lines (f : Failure) : List String :=
  ("Error: " ++ f.message) ::
    match f.causes with
    | [] => []
    | [cause] => "" :: "Caused by:" :: indented "    " "    " cause
    | causes => "" :: "Caused by:" :: numbered 0 causes

def report (f : Failure) : String := "\n".intercalate f.lines

end Failure

end Provenance.CommandLine

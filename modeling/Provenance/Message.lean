import Provenance.SourceMap

/-!
# Messages of the compile channel

A request carries the text to compile, and a response carries generated code or an error,
the elapsed time and possibly a map. Both travel as JSON records.
-/

namespace Provenance

open Provenance.Json

/-- What is asked of a transform program. -/
structure Request where
  code : String
  fileName : String
  options : Value

namespace Request

/-- The fields of a request, in order. -/
def fieldNames : List String := ["code", "filename", "options"]

def ofTree? (t : Tree) : Option Request := do
  let r ← Record.ofTree? fieldNames t
  let code ← r.required "code" Tree.text?
  let fileName ← r.required "filename" Tree.text?
  let options ← r.defaulted "options" .null (Tree.valueAt? 1)
  return ⟨code, fileName, options⟩

/-- Read a request from its JSON text. -/
def ofJson? (text : String) : Option Request := (Tree.ofText? text).bind ofTree?

/-- The request as a JSON object, with its fields in order. -/
def toValue (r : Request) : Value :=
  .object [("code", .string r.code), ("filename", .string r.fileName), ("options", r.options)]

end Request

/-- How a compilation ended: with code or with an error, after some milliseconds. -/
structure Response where
  code : Option String
  error : Option String
  time : Binary64
  map : Option MapPayload
  deriving DecidableEq, Repr

namespace Response

/-- The fields of a response, in order. -/
def fieldNames : List String := ["code", "error", "time", "map"]

def ofTree? (t : Tree) : Option Response := do
  let r ← Record.ofTree? fieldNames t
  let code ← r.optional "code" none (Tree.nullable? Tree.text?)
  let error ← r.optional "error" none (Tree.nullable? Tree.text?)
  let time ← r.required "time" Tree.float?
  let map ← r.optional "map" none (Tree.nullable? (MapPayload.ofTreeAt? 1))
  return ⟨code, error, time, map⟩

/-- Read a response from its JSON text. -/
def ofJson? (text : String) : Option Response := (Tree.ofText? text).bind ofTree?

end Response

/-- One submission of a text, with a number of its own. -/
structure Job where
  text : String
  fileName : String
  options : Value
  sequence : Nat

/-- The request that a job makes. -/
def Job.request (j : Job) : Request := ⟨j.text, j.fileName, j.options⟩

/-- The outcome of the job with the given number. -/
structure Outcome where
  generated : Option String
  map : Option MapPayload
  diagnostic : Option String
  elapsed : Binary64
  sequence : Nat
  deriving DecidableEq, Repr

namespace Outcome

/-- The outcome that a response to a job means. -/
def ofResponse (sequence : Nat) (r : Response) : Outcome :=
  ⟨r.code, r.map, r.error, r.time, sequence⟩

/-- The job ended without a diagnostic. -/
def succeeded (o : Outcome) : Bool := o.diagnostic.isNone

end Outcome

end Provenance

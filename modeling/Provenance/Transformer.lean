import Provenance.Message

/-!
# Transformers

A transformer is loaded before it is called, and both may go wrong. Its behaviour is given by
how each attempt to load it ends and how it answers each call, where attempts and calls are
numbered from 0 over the life of a worker. So a transformer may change its mind, and the
same call need not be answered alike twice.
-/

namespace Provenance

structure Call where
  code : String
  fileName : String
  sourceFileName : String
  sourceMaps : Bool
  options : Json.Value

/-- The call that a job leads to: the map names the file itself and is always asked for. -/
def Call.ofJob (j : Job) : Call := ⟨j.text, j.fileName, j.fileName, true, j.options⟩

/-- Generated code, possibly with a map. -/
structure Generated where
  code : String
  map : Option MapPayload
  deriving DecidableEq, Repr

/-- How a call ends. A transformer that breaks down may leave no readable message. -/
inductive Reply
  | generated (result : Generated)
  | failure (message : String)
  | breakdown (message : Option String)
  deriving DecidableEq, Repr

/-- How an attempt to load a transformer ends. -/
inductive Loading
  | ready
  | failure (message : String)
  | breakdown
  deriving DecidableEq, Repr

/-- The behaviour of a transformer, and the milliseconds that each job takes. -/
structure Transformer where
  load : Nat → Loading
  reply : Nat → Call → Reply
  time : Nat → Binary64

namespace Reply

/-- The diagnostic shown when a transformer breaks down. -/
def breakdownMessage (message : Option String) : String :=
  "Transform panicked: " ++ message.getD "unknown panic"

/-- The response to a job whose call ended like this. -/
def response (time : Binary64) : Reply → Response
  | .generated g => ⟨some g.code, none, time, g.map⟩
  | .failure message => ⟨none, some message, time, none⟩
  | .breakdown message => ⟨none, some (breakdownMessage message), time, none⟩

/-- The transformer can be called again. -/
def survives : Reply → Bool
  | .breakdown _ => false
  | _ => true

end Reply

end Provenance

import Provenance.Os
import Provenance.Settings
import Provenance.Transformer
import Provenance.Wording

/-!
# Transforms by external programs

A program is given a request as JSON and answers with a reply as JSON: code and possibly a
map, or an error. Where several things go wrong the first of these counts: the program does
not start or cannot be waited for, it reports no success, its input cannot be written, its output
is no reply, the reply holds an error.
-/

namespace Provenance

open Provenance.Json

/-- Why a program yields no code. -/
inductive TransformError
  | notRun (program : String) (cause : RunError)
  /-- The program failed without a word. -/
  | exited (program : String) (status : ExitStatus)
  /-- The program failed and said why. -/
  | complained (text : String)
  | unfed (program : String) (cause : OsError)
  | unreadable (program : String) (wording : String)
  /-- The program succeeded and its reply holds an error. -/
  | reported (text : String)
  deriving DecidableEq, Repr

/-- What is shown to the user. -/
def TransformError.message : TransformError → String
  | .notRun program (.notStarted cause) =>
    "Failed to start transform '" ++ program ++ "': " ++ cause.message
  | .notRun program (.notAwaited cause) =>
    "Failed to wait for transform '" ++ program ++ "': " ++ cause.message
  | .exited program status => "Transform '" ++ program ++ "' exited with " ++ status.text
  | .complained text => text
  | .unfed program cause =>
    "Failed to write to transform '" ++ program ++ "' stdin: " ++ cause.message
  | .unreadable program wording =>
    "Failed to parse output of transform '" ++ program ++ "': " ++ wording
  | .reported text => text

/-- What a program prints when it succeeds. -/
structure ProgramReply where
  code : Option String
  map : Option MapPayload
  error : Option String
  deriving DecidableEq, Repr

namespace ProgramReply

/-- The fields of a reply, in order. -/
def fieldNames : List String := ["code", "map", "error"]

/-- Read a reply, in which every field may be missing. -/
def ofTree? (t : Tree) : Option ProgramReply := do
  let r ← Record.ofTree? fieldNames t
  let code ← r.defaulted "code" none (Tree.nullable? Tree.text?)
  let map ← r.defaulted "map" none (Tree.nullable? (MapPayload.ofTreeAt? 1))
  let error ← r.defaulted "error" none (Tree.nullable? Tree.text?)
  return ⟨code, map, error⟩

/-- Read a reply from the bytes that a program printed. -/
def ofBytes? (bytes : List UInt8) : Option ProgramReply :=
  (Tree.ofChars? (Text.Utf8.decode bytes)).bind ofTree?

/-- The code that a reply brings, unless it holds an error. -/
def result : ProgramReply → Except TransformError Generated
  | ⟨_, _, some error⟩ => .error (.reported error)
  | ⟨code, map, none⟩ => .ok ⟨code.getD "", map⟩

end ProgramReply

/-- How programs are run: each is given bytes to read and ends, unless this is not to be known. -/
abbrev Host := (command : TransformCommand) → (input : List UInt8) → Except RunError Ended

namespace TransformCommand

/-- The bytes that a program is given for a call. -/
def input (c : Call) : List UInt8 :=
  Text.Utf8.encode (Request.toValue ⟨c.code, c.fileName, c.options⟩).print

/-- What the end of a program means. -/
def resultOf (wording : Wording) (program : String) (e : Ended) :
    Except TransformError Generated :=
  if e.status.isSuccess then
    match e.inputError?, ProgramReply.ofBytes? e.out with
    | some cause, _ => .error (.unfed program cause)
    | none, some reply => reply.result
    | none, none => .error (.unreadable program (wording.reply e.out))
  else if e.complaint = "" then .error (.exited program e.status)
  else .error (.complained e.complaint)

/-- Carry out a call by running the program. -/
def transform (wording : Wording) (host : Host) (command : TransformCommand) (c : Call) :
    Except TransformError Generated :=
  match host command (input c) with
  | .ok ended => resultOf wording command.program ended
  | .error cause => .error (.notRun command.program cause)

/-- A result as the reply of a transformer. -/
def replyOf : Except TransformError Generated → Reply
  | .ok g => .generated g
  | .error e => .failure e.message

/-- The transformer that runs a program for each call. It can always be loaded. -/
def transformer (wording : Wording) (host : Host) (time : Nat → Binary64)
    (command : TransformCommand) : Transformer where
  load _ := .ready
  reply _ c := replyOf (transform wording host command c)
  time := time

end TransformCommand

end Provenance

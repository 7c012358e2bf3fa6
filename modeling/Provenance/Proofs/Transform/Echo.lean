import Provenance.Proofs.Json.Reading
import Provenance.Proofs.Text.Utf8
import Provenance.Proofs.Transform.Reply

/-!
# Requests that come back

What a program is given to read is at the same time a reply with the code of the request and a
request with everything that was written into it (`transform_of_echo`). So a program that prints its
input unchanged yields the code that it was given.

## Implementation notes

A reply skips the file name and the options of a request, so these need not be values that can be
evaluated. Reading them back as options asks for more: for a value that may come of evaluation at
all, as options always do, for one without fractions, and for a depth that leaves room for the
request around them.
-/

namespace Provenance

open Provenance.Json

namespace Request

/-- Read a request from the bytes that a program was given. -/
def ofBytes? (bytes : List UInt8) : Option Request :=
  (Tree.ofChars? (Text.Utf8.decode bytes)).bind ofTree?

/-- The bytes of a value are read as its document. -/
theorem ofChars?_decode_print (v : Value) :
    Tree.ofChars? (Text.Utf8.decode (Text.Utf8.encode v.print)) = some v.toTree := by
  rw [Text.Utf8.decode_encode, Tree.ofChars?_print]

/-- A request is read back if its options can be evaluated to what they are. -/
theorem ofTree?_toTree {r : Request} (h : r.options.toTree.valueAt? 1 = some r.options) :
    ofTree? r.toValue.toTree = some r := by
  have hrecord : Record.ofTree? fieldNames r.toValue.toTree =
      some ⟨false, [("code", .string (some r.code)), ("filename", .string (some r.fileName)),
        ("options", r.options.toTree)]⟩ := rfl
  rw [ofTree?, hrecord]
  change (r.options.toTree.valueAt? 1).bind (fun options => some (⟨_, _, options⟩ : Request)) = _
  rw [h]
  rfl

end Request

/-- Read as a reply, a request brings its own code and neither a map nor an error. -/
theorem ProgramReply.ofTree?_request (r : Request) :
    ofTree? r.toValue.toTree = some ⟨some r.code, none, none⟩ := by
  have hrecord : Record.ofTree? fieldNames r.toValue.toTree =
      some ⟨false, [("code", .string (some r.code))]⟩ := rfl
  rw [ofTree?, hrecord]
  rfl

namespace TransformCommand

variable {wording : Wording} {host : Host} {command : TransformCommand} {c : Call} {ended : Ended}

/-- The request that a call makes. -/
def requestOf (c : Call) : Request := ⟨c.code, c.fileName, c.options⟩

/-- The input of a program is a reply with the code of the call, and a program that ends well and
prints its input unchanged, which it must have been given for this, yields this code without a map.
The same bytes are a request with the code, the file name and the options of the call, as long as
the options hold no fractions and leave room for one more level of nesting, which a hundred levels
do. -/
theorem transform_of_echo (hrun : host command (input c) = .ok ended)
    (hsuccess : ended.status.isSuccess = true) (hfed : ended.inputError? = none)
    (hout : ended.out = input c) :
    ProgramReply.ofBytes? ended.out = some ⟨some c.code, none, none⟩ ∧
      transform wording host command c = .ok ⟨c.code, none⟩ ∧
      (c.options.All Value.IsCanonical → 1 + c.options.depth ≤ Tree.depthLimit →
        c.options.All Value.IsWhole →
        Request.ofBytes? ended.out = some ⟨c.code, c.fileName, c.options⟩) := by
  have htree : Tree.ofChars? (Text.Utf8.decode ended.out) =
      some (requestOf c).toValue.toTree := by
    rw [hout]
    exact Request.ofChars?_decode_print (requestOf c).toValue
  have hreply : ProgramReply.ofBytes? ended.out = some ⟨some c.code, none, none⟩ := by
    rw [ProgramReply.ofBytes?, htree, Option.bind_some]
    exact ProgramReply.ofTree?_request (requestOf c)
  refine ⟨hreply, transform_eq_result hrun hsuccess hfed hreply, ?_⟩
  intro hcanonical hdepth hwhole
  have hoptions := Value.valueAt?_toTree hdepth hcanonical hwhole
  rw [Request.ofBytes?, htree, Option.bind_some]
  exact Request.ofTree?_toTree (r := requestOf c) hoptions

/-- A program that prints its input unchanged. -/
def echoing : Host := fun _ bytes => .ok ⟨.exited 0, bytes, [], none⟩

/-- A call whose text and options look like parts of a reply. -/
def deceptiveCall : Call where
  code := "\"map\":\\ \x00\n😀"
  fileName := "\",\"error\":\"e"
  sourceFileName := "\",\"error\":\"e"
  sourceMaps := true
  options := .object [("error", .string "e"), ("map", .array [.number (.integer (-7)), .object []])]

theorem transform_of_echo_deceptive :
    transform terse echoing ⟨"cat", []⟩ deceptiveCall = .ok ⟨deceptiveCall.code, none⟩ ∧
      deceptiveCall.options.All Value.IsCanonical ∧
      1 + deceptiveCall.options.depth ≤ Tree.depthLimit ∧
      deceptiveCall.options.All Value.IsWhole ∧
      (Request.ofBytes? (input deceptiveCall)).map Request.options = some deceptiveCall.options := by
  have hcanonical : deceptiveCall.options.All Value.IsCanonical := by
    refine ⟨?_, trivial, ⟨trivial, ?_, ⟨List.Pairwise.nil, trivial⟩, trivial⟩, trivial⟩
    · change (["error", "map"] : List String).Pairwise (· < ·)
      decide
    · constructor <;> decide
  have hdepth : 1 + deceptiveCall.options.depth ≤ Tree.depthLimit := by decide
  have hwhole : deceptiveCall.options.All Value.IsWhole :=
    ⟨trivial, trivial, ⟨trivial, trivial, ⟨trivial, trivial⟩, trivial⟩, trivial⟩
  obtain ⟨-, hok, hrequest⟩ :=
    @transform_of_echo terse echoing ⟨"cat", []⟩ deceptiveCall _ rfl rfl rfl rfl
  exact ⟨hok, hcanonical, hdepth, hwhole,
    congrArg (Option.map Request.options) (hrequest hcanonical hdepth hwhole)⟩

end TransformCommand

end Provenance

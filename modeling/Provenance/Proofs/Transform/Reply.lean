import Mathlib.Data.List.Permutation
import Provenance.CommandTransform
import Provenance.Proofs.Json.Documents
import Provenance.Proofs.Session.Convergence
import Provenance.Proofs.Text.Utf8

/-!
# Maps in the replies of programs

A transform program that ends well and prints an object with code and a map yields the code if the
map is null, a text or a record of the right shape. What the text or the record means is not looked
at before a session shows the code, without a highlight where it means nothing. Any other map spoils
the whole reply, and the code is lost with it.

## Implementation notes

`Carries` says without reading a reply what its map is worth. A map of the right shape counts for
nothing if some part of it cannot be evaluated, be it one that no source map has.
-/

namespace Provenance

open Provenance.Json

namespace ProgramReply

/-- What the map of a reply carries: nothing, a text or a source map. -/
inductive Carries : Tree → Option MapPayload → Prop
  | null : Carries .null none
  | text (s : String) : Carries (.string (some s)) (some (.text s))
  | object {t : Tree} {m : SourceMap} (map : SourceMap.ofTree? t = some m)
      (value : (t.valueAt? 1).isSome = true) : Carries t (some (.object m))

/-! ## Reading -/

theorem text?_eq_some_iff {t : Tree} {s : String} : t.text? = some s ↔ t = .string (some s) := by
  cases t <;> simp [Tree.text?]

/-- A payload is read exactly from a document that can be evaluated and is a map or a text. -/
theorem ofTreeAt?_eq_some_iff {level : Nat} {t : Tree} {p : MapPayload} :
    MapPayload.ofTreeAt? level t = some p ↔
      (t.valueAt? level).isSome = true ∧
        ((∃ m, SourceMap.ofTree? t = some m ∧ p = .object m) ∨
          SourceMap.ofTree? t = none ∧ ∃ s, t = .string (some s) ∧ p = .text s) := by
  rw [MapPayload.ofTreeAt?]
  cases t.valueAt? level with
  | none => simp
  | some v =>
      cases SourceMap.ofTree? t with
      | none => simp [← text?_eq_some_iff, @eq_comm _ p]
      | some m => simp [@eq_comm _ p]

theorem nullable?_of_ne_null {α : Type} {read : Tree → Option α} {t : Tree} (h : t ≠ .null) :
    Tree.nullable? read t = (read t).map some := by
  cases t with
  | null => exact absurd rfl h
  | _ => rfl

/-- The map of a reply is read exactly as what it carries. -/
theorem nullable?_eq_some_iff {t : Tree} {payload : Option MapPayload} :
    Tree.nullable? (MapPayload.ofTreeAt? 1) t = some payload ↔ Carries t payload := by
  constructor
  · intro h
    by_cases hnull : t = .null
    · subst hnull
      obtain rfl := Option.some.inj h
      exact .null
    · rw [nullable?_of_ne_null hnull, Option.map_eq_some_iff] at h
      obtain ⟨p, hp, rfl⟩ := h
      obtain ⟨hvalue, ⟨m, hm, rfl⟩ | ⟨-, s, rfl, rfl⟩⟩ := ofTreeAt?_eq_some_iff.mp hp
      · exact .object hm hvalue
      · exact .text s
  · intro h
    cases h with
    | null => rfl
    | text s => rfl
    | @object t m hmap hvalue =>
        have hnull : t ≠ .null := by
          rintro rfl
          cases hmap
        rw [nullable?_of_ne_null hnull,
          ofTreeAt?_eq_some_iff.mpr ⟨hvalue, Or.inl ⟨m, hmap, rfl⟩⟩]
        rfl

/-- A record of code and a map is a reply exactly if its map can be read. -/
theorem ofTree?_of_fields {tree t : Tree} {r : Record} {code : String}
    (hr : Record.ofTree? fieldNames tree = some r)
    (hcode : r.get? "code" = some (.string (some code))) (hmap : r.get? "map" = some t)
    (herror : r.get? "error" = none) :
    ofTree? tree =
      (Tree.nullable? (MapPayload.ofTreeAt? 1) t).map (⟨some code, ·, none⟩) := by
  have hread : Tree.nullable? Tree.text? (.string (some code)) = some (some code) := rfl
  simp only [ofTree?, hr, Record.defaulted, hcode, hmap, herror, hread, bind, Option.bind_some]
  cases Tree.nullable? (MapPayload.ofTreeAt? 1) t with
  | none => rfl
  | some payload => rfl

theorem ofTree?_of_perm {members : List (Option String × Tree)} {code : String} {t : Tree}
    (hmembers : members.Perm [(some "code", .string (some code)), (some "map", t)]) :
    ofTree? (.object members) =
      (Tree.nullable? (MapPayload.ofTreeAt? 1) t).map (⟨some code, ·, none⟩) := by
  rcases List.perm_pair.mp hmembers with rfl | rfl
  · exact ofTree?_of_fields rfl rfl rfl rfl
  · exact ofTree?_of_fields rfl rfl rfl rfl

end ProgramReply

/-! ## Results in a session -/

namespace Session

/-- The session after it has accepted the outcome of a job for which a program was run. -/
def acceptResult (s : Session) (sequence : Nat) (time : Binary64)
    (result : Except TransformError Generated) : Session :=
  (s.handleEvent (.completed
    (.ofResponse sequence ((TransformCommand.replyOf result).response time)))).2

variable {s : Session} {sequence : Nat} {time : Binary64}

/-- A session shows code whatever its map is worth; without an atlas there is no highlight. -/
theorem acceptResult_ok (g : Generated) :
    (s.acceptResult sequence time (.ok g)).view.generatedCode = g.code ∧
      (s.acceptResult sequence time (.ok g)).view.status.diagnostic = none ∧
      (∀ a, (s.acceptResult sequence time (.ok g)).focus.atlas = some a ↔
        Outcome.Charts ⟨some g.code, g.map, none, time, sequence⟩ a) ∧
      ((s.acceptResult sequence time (.ok g)).focus.atlas = none →
        (s.acceptResult sequence time (.ok g)).view.highlight = none ∧
          (s.acceptResult sequence time (.ok g)).view.status.mappedLine = none) := by
  refine ⟨rfl, rfl, fun a => bind_atlasOf?_eq_some_iff, fun hatlas => ?_⟩
  have hhighlight : (s.acceptResult sequence time (.ok g)).focus.highlight = none :=
    highlight_refresh_of_atlas_eq_none hatlas
  exact ⟨hhighlight, congrArg (Option.map Highlight.line) hhighlight⟩

theorem acceptResult_error (e : TransformError) :
    (s.acceptResult sequence time (.error e)).view.generatedCode = s.view.generatedCode ∧
      (s.acceptResult sequence time (.error e)).view.status.diagnostic = some e.message :=
  ⟨rfl, rfl⟩

end Session

namespace TransformCommand

open ProgramReply

variable {wording : Wording} {host : Host} {command : TransformCommand} {c : Call}
variable {ended : Ended} {members : List (Option String × Tree)} {code : String} {t : Tree}

/-- A program that ends well yields what its reply says. -/
theorem transform_eq_result (hrun : host command (input c) = .ok ended)
    (hsuccess : ended.status.isSuccess = true) (hfed : ended.inputError? = none)
    {reply : ProgramReply} (hreply : ofBytes? ended.out = some reply) :
    transform wording host command c = reply.result := by
  rw [transform, hrun]
  simp only [resultOf, hsuccess, if_true, hfed, hreply]

theorem transform_eq_unreadable (hrun : host command (input c) = .ok ended)
    (hsuccess : ended.status.isSuccess = true) (hfed : ended.inputError? = none)
    (hreply : ofBytes? ended.out = none) :
    transform wording host command c =
      .error (.unreadable command.program (wording.reply ended.out)) := by
  rw [transform, hrun]
  simp only [resultOf, hsuccess, if_true, hfed, hreply]

theorem transform_eq_unfed (hrun : host command (input c) = .ok ended)
    (hsuccess : ended.status.isSuccess = true) {cause : OsError}
    (hunfed : ended.inputError? = some cause) :
    transform wording host command c = .error (.unfed command.program cause) := by
  rw [transform, hrun]
  simp only [resultOf, hsuccess, if_true, hunfed]

/-- A program that ends well and prints an object of code and a map, and had all the input that it
wanted: if the map carries anything, the result is the code with it, and a session that accepts the
result shows the code and no diagnostic, without a highlight if the map gives no atlas. If not, the
output is unreadable, and a session shows this as a diagnostic, in whatever words, while its code
stays. Input that could not be written is reported as such, whatever the map is. -/
theorem transform_of_map (hrun : host command (input c) = .ok ended)
    (hsuccess : ended.status.isSuccess = true)
    (hout : Tree.ofChars? (Text.Utf8.decode ended.out) = some (.object members))
    (hmembers : members.Perm [(some "code", .string (some code)), (some "map", t)]) :
    (ended.inputError? = none → ∀ payload, Carries t payload →
      transform wording host command c = .ok ⟨code, payload⟩ ∧
      ∀ (s : Session) sequence time,
        let shown := s.acceptResult sequence time (transform wording host command c)
        shown.view.generatedCode = code ∧ shown.view.status.diagnostic = none ∧
          (∀ a, shown.focus.atlas = some a ↔
            Outcome.Charts ⟨some code, payload, none, time, sequence⟩ a) ∧
          (shown.focus.atlas = none →
            shown.view.highlight = none ∧ shown.view.status.mappedLine = none)) ∧
    (ended.inputError? = none → (∀ payload, ¬ Carries t payload) →
      let e := TransformError.unreadable command.program (wording.reply ended.out)
      transform wording host command c = .error e ∧
      ∀ (s : Session) sequence time,
        let shown := s.acceptResult sequence time (transform wording host command c)
        shown.view.generatedCode = s.view.generatedCode ∧
          shown.view.status.diagnostic = some e.message) ∧
    ∀ cause, ended.inputError? = some cause →
      transform wording host command c = .error (.unfed command.program cause) := by
  have hreply : ofBytes? ended.out =
      (Tree.nullable? (MapPayload.ofTreeAt? 1) t).map (⟨some code, ·, none⟩) := by
    rw [ofBytes?, hout, Option.bind_some, ofTree?_of_perm hmembers]
  refine ⟨?_, ?_, fun cause => transform_eq_unfed hrun hsuccess⟩
  · intro hfed payload hcarries
    rw [nullable?_eq_some_iff.mpr hcarries] at hreply
    have hok : transform wording host command c = .ok ⟨code, payload⟩ :=
      transform_eq_result hrun hsuccess hfed hreply
    rw [hok]
    exact ⟨rfl, fun s sequence time => Session.acceptResult_ok _⟩
  · intro hfed hnone e
    have hunread : Tree.nullable? (MapPayload.ofTreeAt? 1) t = none := by
      rw [Option.eq_none_iff_forall_ne_some]
      exact fun payload h => hnone payload (nullable?_eq_some_iff.mp h)
    rw [hunread] at hreply
    rw [transform_eq_unreadable hrun hsuccess hfed hreply]
    exact ⟨rfl, fun s sequence time => Session.acceptResult_error _⟩

/-- A program that reads nothing and prints a text. -/
def printing (text : String) : Host := fun _ _ =>
  .ok ⟨.exited 0, Text.Utf8.encode text.toList, [], none⟩

/-- A reply whose map lacks all fields. -/
def emptyMap : String := "\x7b\"code\":\"c\",\"map\":\x7b\x7d\x7d"

/-- A reply whose map is a text that is no map. -/
def wordMap : String := "\x7b\"map\":\"none\",\"code\":\"c\"\x7d"

/-- A call without anything to compile. -/
def emptyCall : Call := ⟨"", "Demo.tsx", "Demo.tsx", true, .object []⟩

theorem printing_eq_ok (text : String) (command : TransformCommand) (bytes : List UInt8) :
    printing text command bytes = .ok ⟨.exited 0, Text.Utf8.encode text.toList, [], none⟩ := rfl

/-- A text is read as the document that prints it. -/
theorem ofChars?_of_toList {text : String} {v : Value} (h : text.toList = v.print) :
    Tree.ofChars? (Text.Utf8.decode (Text.Utf8.encode text.toList)) = some v.toTree := by
  rw [Text.Utf8.decode_encode, h, Tree.ofChars?_print]

theorem ofChars?_emptyMap : Tree.ofChars? (Text.Utf8.decode (Text.Utf8.encode emptyMap.toList)) =
    some (.object [(some "code", .string (some "c")), (some "map", .object [])]) :=
  ofChars?_of_toList (v := .object [("code", .string "c"), ("map", .object [])]) (by decide)

theorem ofChars?_wordMap : Tree.ofChars? (Text.Utf8.decode (Text.Utf8.encode wordMap.toList)) =
    some (.object [(some "map", .string (some "none")), (some "code", .string (some "c"))]) :=
  ofChars?_of_toList (v := .object [("map", .string "none"), ("code", .string "c")]) (by decide)

/-- Every refusal in the same words. -/
def terse : Wording := ⟨fun _ => "bad map", fun _ => "bad reply", fun _ => "bad settings"⟩

theorem transform_of_map_wordMap :
    (∃ payload, transform terse (printing wordMap) ⟨"babel", []⟩ emptyCall = .ok ⟨"c", payload⟩ ∧
      payload.bind Session.atlasOf? = none) ∧
    transform terse (printing emptyMap) ⟨"babel", []⟩ emptyCall =
      .error (.unreadable "babel" "bad reply") := by
  have hcarries : ∀ payload, ¬ ProgramReply.Carries (.object []) payload := by
    intro payload h
    cases h with
    | object hmap => cases hmap
  constructor
  · have hrun := printing_eq_ok wordMap ⟨"babel", []⟩ (input emptyCall)
    obtain ⟨hcarried, -⟩ := transform_of_map hrun rfl ofChars?_wordMap (List.Perm.swap _ _ _)
    obtain ⟨hok, -⟩ := hcarried rfl _ (.text "none")
    exact ⟨_, hok, rfl⟩
  · have hrun := printing_eq_ok emptyMap ⟨"babel", []⟩ (input emptyCall)
    obtain ⟨-, hspoiled, -⟩ := transform_of_map hrun rfl ofChars?_emptyMap (List.Perm.refl _)
    exact (hspoiled rfl hcarries).1

/-- A program that ends well and prints code need not yield it: a map of the wrong shape spoils the
whole reply. -/
theorem not_forall_transform_eq_ok :
    ¬ ∀ (wording : Wording) (host : Host) (command : TransformCommand) (c : Call) (ended : Ended)
      (members : List (Option String × Tree)) (code : String) (t : Tree),
      host command (input c) = .ok ended → ended.status.isSuccess = true →
      ended.inputError? = none →
      Tree.ofChars? (Text.Utf8.decode ended.out) = some (.object members) →
      members.Perm [(some "code", .string (some code)), (some "map", t)] →
      ∃ payload, transform wording host command c = .ok ⟨code, payload⟩ := by
  intro hall
  have hrun := printing_eq_ok emptyMap ⟨"babel", []⟩ (input emptyCall)
  obtain ⟨payload, hok⟩ :=
    hall terse _ _ _ _ _ _ _ hrun rfl rfl ofChars?_emptyMap (List.Perm.refl _)
  have hreply : ofBytes? (Text.Utf8.encode emptyMap.toList) = none := by
    rw [ofBytes?, ofChars?_emptyMap]
    rfl
  rw [transform_eq_unreadable hrun rfl rfl hreply] at hok
  cases hok

end TransformCommand

end Provenance

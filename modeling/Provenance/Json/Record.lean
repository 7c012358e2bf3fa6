import Provenance.Json.Parser

/-!
# Records in JSON

A record is written as an object, whose unknown members are skipped and whose known members
may occur once, or as an array of its fields in order. A field without a member takes its
default; in an array only fields at the end that are declared with a default may be missing.
-/

namespace Provenance.Json

/-- The fields that a document gives to a record. -/
structure Record where
  positional : Bool
  fields : List (String × Tree)

namespace Record

/-- Collect the known members of an object; `none` if a key is no text or a known one is
repeated. -/
def ofMembers? (names : List String) :
    List (Option String × Tree) → Option (List (String × Tree))
  | [] => some []
  | (none, _) :: _ => none
  | (some key, t) :: rest => do
    let fields ← ofMembers? names rest
    if key ∈ names then
      if fields.any (·.1 = key) then none else some ((key, t) :: fields)
    else
      some fields

/-- The fields of a record with the given names. -/
def ofTree? (names : List String) : Tree → Option Record
  | .object members => (ofMembers? names members).map (⟨false, ·⟩)
  | .array items =>
    if items.length ≤ names.length then some ⟨true, names.zip items⟩ else none
  | _ => none

def get? (r : Record) (name : String) : Option Tree :=
  (r.fields.find? (·.1 = name)).map Prod.snd

/-- Read a field that must be there. -/
def required {α : Type} (r : Record) (name : String) (read : Tree → Option α) : Option α :=
  (r.get? name).bind read

/-- Read a field that may be missing from an object. -/
def optional {α : Type} (r : Record) (name : String) (absent : α) (read : Tree → Option α) :
    Option α :=
  match r.get? name with
  | some t => read t
  | none => if r.positional then none else some absent

/-- Read a field that may be missing from an object or from the end of an array. -/
def defaulted {α : Type} (r : Record) (name : String) (absent : α) (read : Tree → Option α) :
    Option α :=
  match r.get? name with
  | some t => read t
  | none => some absent

end Record

namespace Tree

def text? : Tree → Option String
  | .string s => s
  | _ => none

def nullable? {α : Type} (read : Tree → Option α) : Tree → Option (Option α)
  | .null => some none
  | t => (read t).map some

/-- Read the items of an array. -/
def items? {α : Type} (read : Tree → Option α) : Tree → Option (List α)
  | .array items => items.mapM read
  | _ => none

/-- A word of 32 bits, written as an integer. -/
def word? : Tree → Option UInt32
  | .numeral n =>
    n.integer?.bind fun i =>
      if 0 ≤ i ∧ i < 2 ^ 32 then some (UInt32.ofNat i.toNat) else none
  | _ => none

/-- A number, as a floating point number. -/
def float? : Tree → Option Binary64
  | .numeral n => n.number?.map Number.toBinary64
  | _ => none

/-- The greatest depth of a document that is evaluated. -/
def depthLimit : Nat := 127

/-- The value of a document that lies below `level` other arrays and objects. -/
def valueAt? (level : Nat) (t : Tree) : Option Value :=
  if level + t.depth ≤ depthLimit then t.value? else none

end Tree

end Provenance.Json

import Provenance.Json.Value

/-!
# JSON documents before evaluation

A tree is the structure of a document with its numerals unread. It also holds strings that
no text denotes, because a half of a surrogate pair stands alone in them or their bytes are
malformed: a reader may skip such a string, and fails only when it wants its text. Likewise
nesting is bounded only for what is evaluated.
-/

namespace Provenance.Json

/-- A document before evaluation. A string without text is `none`. -/
inductive Tree
  | null
  | bool (b : Bool)
  | numeral (n : Numeral)
  | string (s : Option String)
  | array (items : List Tree)
  | object (members : List (Option String × Tree))
  deriving Inhabited

namespace Tree

mutual

/-- How deeply arrays and objects are nested. -/
def depth : Tree → Nat
  | .array items => depthItems items + 1
  | .object members => depthMembers members + 1
  | _ => 0

/-- Greatest depth among the items. -/
def depthItems : List Tree → Nat
  | [] => 0
  | t :: ts => max t.depth (depthItems ts)

/-- Greatest depth among the members. -/
def depthMembers : List (Option String × Tree) → Nat
  | [] => 0
  | (_, t) :: ts => max t.depth (depthMembers ts)

end

mutual

/-- The value of a document, if all its strings are texts and its numbers are in range. -/
def value? : Tree → Option Value
  | .null => some .null
  | .bool b => some (.bool b)
  | .numeral n => n.number?.map .number
  | .string s => s.map .string
  | .array items => (valueItems? items).map .array
  | .object members => (valueMembers? members).map .ofMembers

/-- The values of the items. -/
def valueItems? : List Tree → Option (List Value)
  | [] => some []
  | t :: ts => do
    let v ← t.value?
    let vs ← valueItems? ts
    return v :: vs

/-- The keys and values of the members. -/
def valueMembers? : List (Option String × Tree) → Option (List (String × Value))
  | [] => some []
  | (k, t) :: ts => do
    let key ← k
    let v ← t.value?
    let vs ← valueMembers? ts
    return (key, v) :: vs

end

end Tree

end Provenance.Json

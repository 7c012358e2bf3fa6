import Provenance.Json.Number

/-!
# JSON values

A value is what a JSON document means once its numbers are evaluated. Members of an object
are kept in the order in which they are written out; `Value.ofMembers` gives the order that
values read from a document have, sorted by key with the last of several equal keys.
-/

namespace Provenance.Json

inductive Value
  | null
  | bool (b : Bool)
  | number (n : Number)
  | string (s : String)
  | array (items : List Value)
  | object (members : List (String × Value))
  deriving Inhabited

namespace Value

/-- Put a member where its key belongs, in place of a member with the same key. -/
def insert (key : String) (value : Value) : List (String × Value) → List (String × Value)
  | [] => [(key, value)]
  | (k, v) :: rest =>
    if key < k then (key, value) :: (k, v) :: rest
    else if key = k then (key, value) :: rest
    else (k, v) :: insert key value rest

/-- The object with the given members, sorted by key. -/
def ofMembers (members : List (String × Value)) : Value :=
  .object (members.foldl (fun sorted (k, v) => insert k v sorted) [])

def nat (n : Nat) : Value := .number (.integer n)

def word (n : UInt32) : Value := nat n.toNat

/-- An optional value, null when it is absent. -/
def option {α : Type} (f : α → Value) : Option α → Value
  | none => .null
  | some a => f a

def list {α : Type} (f : α → Value) (items : List α) : Value := .array (items.map f)

/-- A member of an object, the first with its key. -/
def get? (v : Value) (key : String) : Option Value :=
  match v with
  | .object members => (members.find? (·.1 = key)).map Prod.snd
  | _ => none

end Value

end Provenance.Json

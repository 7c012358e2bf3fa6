import Provenance.Toml.Value

/-!
# TOML tables

While a document is read, a table remembers how it came to be: one that only appears on the
way to another may still be opened by a header of its own, one that dotted keys made may be
extended by dotted keys alone, and one that was defined may not be defined again.
-/

namespace Provenance.Toml

/-- How a table came to be. -/
inductive Origin
  /-- By a header or as a value. -/
  | defined
  /-- On the way to a table with a header. -/
  | implied
  /-- On the way of a dotted key. -/
  | dotted
  deriving DecidableEq

/-- What a key of a table under construction stands for. -/
inductive Item
  | value (v : Value)
  | table (origin : Origin) (entries : List (String × Item))
  | tables (elements : List (List (String × Item)))
  deriving Inhabited

/-- The entries of a table under construction, in order of their first mention. -/
abbrev Entries := List (String × Item)

namespace Item

mutual

def toValue : Item → Value
  | .value v => v
  | .table _ entries => .table (entriesToValues entries)
  | .tables elements => .array (elementsToValues elements)

/-- The finished members of a table. -/
def entriesToValues : List (String × Item) → List (String × Value)
  | [] => []
  | (k, item) :: rest => (k, item.toValue) :: entriesToValues rest

/-- The finished elements of an array of tables. -/
def elementsToValues : List (List (String × Item)) → List Value
  | [] => []
  | entries :: rest => .table (entriesToValues entries) :: elementsToValues rest

end

end Item

namespace Entries

def get? (entries : Entries) (key : String) : Option Item :=
  (entries.find? (·.1 = key)).map Prod.snd

/-- Replace the item of a key, or add it at the end. -/
def put (key : String) (item : Item) : Entries → Entries
  | [] => [(key, item)]
  | (k, i) :: rest => if k = key then (k, item) :: rest else (k, i) :: put key item rest

/-- Add the item of a key that is not there yet. -/
def add? (entries : Entries) (key : String) (item : Item) : Option Entries :=
  if (entries.get? key).isSome then none else some (entries ++ [(key, item)])

/-- Change the last element of a list. -/
def updateLast? {α : Type} (f : α → Option α) : List α → Option (List α)
  | [] => none
  | [a] => (f a).map ([·])
  | a :: rest => (updateLast? f rest).map (a :: ·)

/-- Change the table at the end of a path of headers. Missing tables on the way are implied,
and an array of tables stands for its last element. -/
def within? (f : Entries → Option Entries) : List String → Entries → Option Entries
  | [], entries => f entries
  | key :: path, entries =>
    match entries.get? key with
    | none => do
      let inner ← within? f path []
      return entries ++ [(key, .table .implied inner)]
    | some (.table origin inner) => do
      let inner ← within? f path inner
      return entries.put key (.table origin inner)
    | some (.tables elements) => do
      let elements ← updateLast? (within? f path) elements
      return entries.put key (.tables elements)
    | some (.value _) => none

/-- Add a value under a dotted key. All tables on the way of the key must be open to dotted
keys, and the last one must have been made by one. -/
def addDotted? (value : Value) : List String → Entries → Option Entries
  | [], _ => none
  | [key], entries => entries.add? key (.value value)
  | key :: next :: path, entries =>
    match entries.get? key with
    | none => do
      let inner ← addDotted? value (next :: path) []
      return entries ++ [(key, .table .dotted inner)]
    | some (.table .dotted inner) => do
      let inner ← addDotted? value (next :: path) inner
      return entries.put key (.table .dotted inner)
    | some (.table .implied inner) =>
      if path = [] then none
      else do
        let inner ← addDotted? value (next :: path) inner
        return entries.put key (.table .implied inner)
    | some (.tables elements) =>
      if path = [] then none
      else do
        let elements ← updateLast? (addDotted? value (next :: path)) elements
        return entries.put key (.tables elements)
    | _ => none

/-- The table of an inline table with the given dotted keys and values. -/
def ofPairs? (pairs : List (List String × Value)) : Option Value := do
  let entries ← pairs.foldlM (fun entries (path, value) => addDotted? value path entries) []
  return (Item.table .defined entries).toValue

end Entries

end Provenance.Toml

import Provenance.Toml.Statement

/-!
# TOML documents

The statements of a document are carried out in order. A header says which table the
following keys belong to.
-/

namespace Provenance.Toml

/-- The tables read so far, and the table that keys are added to. -/
structure Document where
  entries : Entries
  current : List String

namespace Document

/-- Open a table with a header. -/
def openTable (key : String) (entries : Entries) : Option Entries :=
  match entries.get? key with
  | none => some (entries ++ [(key, .table .defined [])])
  | some (.table .implied inner) => some (entries.put key (.table .defined inner))
  | _ => none

/-- Open the next element of an array of tables. -/
def openElement (key : String) (entries : Entries) : Option Entries :=
  match entries.get? key with
  | none => some (entries ++ [(key, .tables [[]])])
  | some (.tables elements) => some (entries.put key (.tables (elements ++ [[]])))
  | _ => none

def apply (d : Document) : Statement → Option Document
  | .pair path value => do
    let entries ← Entries.within? (Entries.addDotted? value path) d.current d.entries
    return ⟨entries, d.current⟩
  | .header path => do
    let key ← path.getLast?
    let entries ← Entries.within? (openTable key) path.dropLast d.entries
    return ⟨entries, path⟩
  | .element path => do
    let key ← path.getLast?
    let entries ← Entries.within? (openElement key) path.dropLast d.entries
    return ⟨entries, path⟩

/-- Leave out a byte order mark. -/
def dropMark : List Char → List Char
  | '\uFEFF' :: cs => cs
  | cs => cs

/-- The members of the table that a document describes. -/
def parse? (text : String) : Option (List (String × Value)) := do
  let cs := dropMark text.toList
  let statements ← Statement.readAll (cs.length + 1) cs
  let d ← statements.foldlM apply ⟨[], []⟩
  return Item.entriesToValues d.entries

end Document

end Provenance.Toml

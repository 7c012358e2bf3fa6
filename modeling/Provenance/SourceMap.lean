import Provenance.Json.Printer
import Provenance.Json.Record

/-!
# Source maps

A source map of revision 3 as a value, its JSON form, and the payload in which a map travels:
either the map itself or its text. Reading checks neither the version nor the mappings.
-/

namespace Provenance

open Provenance.Json

/-- A source map of revision 3. -/
structure SourceMap where
  version : UInt32
  file : Option String
  sources : List String
  names : List String
  mappings : String
  sourceRoot : Option String
  sourcesContent : Option (List (Option String))
  deriving DecidableEq, Repr

namespace SourceMap

/-- The fields of a map, in order. -/
def fieldNames : List String :=
  ["version", "file", "sources", "names", "mappings", "sourceRoot", "sourcesContent"]

def ofTree? (t : Tree) : Option SourceMap := do
  let r ← Record.ofTree? fieldNames t
  let version ← r.required "version" Tree.word?
  let file ← r.defaulted "file" none (Tree.nullable? Tree.text?)
  let sources ← r.defaulted "sources" [] (Tree.items? Tree.text?)
  let names ← r.defaulted "names" [] (Tree.items? Tree.text?)
  let mappings ← r.required "mappings" Tree.text?
  let sourceRoot ← r.defaulted "sourceRoot" none (Tree.nullable? Tree.text?)
  let sourcesContent ← r.defaulted "sourcesContent" none
    (Tree.nullable? (Tree.items? (Tree.nullable? Tree.text?)))
  return ⟨version, file, sources, names, mappings, sourceRoot, sourcesContent⟩

/-- Read a map from its JSON text. -/
def ofJson? (text : String) : Option SourceMap := (Tree.ofText? text).bind ofTree?

/-- A member for an optional field, which is left out when it is absent. -/
def optionalMember {α : Type} (key : String) (f : α → Value) : Option α → List (String × Value)
  | none => []
  | some a => [(key, f a)]

/-- The map as a JSON object, with its fields in order. -/
def toValue (m : SourceMap) : Value :=
  .object (("version", .word m.version) :: optionalMember "file" .string m.file ++
    [("sources", .list .string m.sources), ("names", .list .string m.names),
      ("mappings", .string m.mappings)] ++
    optionalMember "sourceRoot" .string m.sourceRoot ++
    optionalMember "sourcesContent" (.list (.option .string)) m.sourcesContent)

/-- The compact JSON text of a map. -/
def toJson (m : SourceMap) : String := m.toValue.compact

end SourceMap

/-- A source map as it is handed over: as an object or as its JSON text. -/
inductive MapPayload
  | object (map : SourceMap)
  | text (json : String)
  deriving DecidableEq, Repr

namespace MapPayload

/-- Read a payload that lies below `level` other arrays and objects. All of it is evaluated
before it is known to be a map, also the parts that a map does not use. -/
def ofTreeAt? (level : Nat) (t : Tree) : Option MapPayload := do
  let _ ← t.valueAt? level
  match SourceMap.ofTree? t with
  | some m => return .object m
  | none => t.text?.map .text

/-- Read a payload from its JSON text. -/
def ofJson? (text : String) : Option MapPayload := (Tree.ofText? text).bind (ofTreeAt? 0)

/-- The payload as a JSON value. -/
def toValue : MapPayload → Value
  | .object m => m.toValue
  | .text s => .string s

/-- The JSON text of a payload. -/
def json : MapPayload → String
  | .object m => m.toJson
  | .text s => s

/-- The map that a payload carries, unless its text is no map. -/
def sourceMap? : MapPayload → Option SourceMap
  | .object m => some m
  | .text s => SourceMap.ofJson? s

end MapPayload

end Provenance

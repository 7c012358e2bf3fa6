import Provenance.Json.Value

/-!
# TOML values

The values of a configuration file, and how they are seen as JSON: dates become an object
that holds their text, and numbers that are not finite become null.
-/

namespace Provenance.Toml

open Provenance.Json (Number)

/-- A TOML value. Dates and times are kept as text in their canonical form. -/
inductive Value
  | string (s : String)
  | integer (n : Int)
  | float (x : Binary64)
  | bool (b : Bool)
  | datetime (text : String)
  | array (items : List Value)
  | table (members : List (String × Value))
  deriving Inhabited

/-- The key under which JSON holds the text of a date. -/
def datetimeKey : String := "$__toml_private_datetime"

namespace Value

mutual

def toJson : Value → Json.Value
  | .string s => .string s
  | .integer n => .number (.integer n)
  | .float x => if x.isFinite then .number (.float x) else .null
  | .bool b => .bool b
  | .datetime text => .object [(datetimeKey, .string text)]
  | .array items => .array (itemsToJson items)
  | .table members => .ofMembers (membersToJson members)

def itemsToJson : List Value → List Json.Value
  | [] => []
  | v :: vs => v.toJson :: itemsToJson vs

def membersToJson : List (String × Value) → List (String × Json.Value)
  | [] => []
  | (k, v) :: vs => (k, v.toJson) :: membersToJson vs

end

end Value

end Provenance.Toml

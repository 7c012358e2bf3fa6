import Provenance.Json.Token

/-!
# Reading JSON documents

The parser goes through the tokens once and keeps the arrays and objects that are still open
on a stack, so the depth of a document is not bounded here.
-/

namespace Provenance.Json

/-- An array or object that is still open; its contents are kept in reverse. -/
inductive Frame
  | array (items : List Tree)
  | object (members : List (Option String × Tree)) (key : Option String)

/-- What the parser expects next. -/
inductive Expecting
  /-- A value, or the end of the array that was just opened if `canClose`. -/
  | value (canClose : Bool) (stack : List Frame)
  /-- A key, or the end of the object that was just opened if `canClose`. -/
  | key (canClose : Bool) (members : List (Option String × Tree)) (stack : List Frame)
  /-- The colon after a key. -/
  | colon (members : List (Option String × Tree)) (key : Option String) (stack : List Frame)
  /-- A comma or the end of the innermost array. -/
  | itemEnd (items : List Tree) (stack : List Frame)
  /-- A comma or the end of the innermost object. -/
  | memberEnd (members : List (Option String × Tree)) (stack : List Frame)
  /-- Nothing more. -/
  | nothing (result : Tree)

namespace Expecting

/-- Hand a complete value to the innermost open array or object. -/
def deliver (t : Tree) : List Frame → Expecting
  | [] => .nothing t
  | .array items :: stack => .itemEnd (t :: items) stack
  | .object members name :: stack => .memberEnd ((name, t) :: members) stack

def step : Expecting → Token → Option Expecting
  | .value _ stack, .scalar t => some (deliver t stack)
  | .value _ stack, .string s => some (deliver (.string s) stack)
  | .value _ stack, .openArray => some (.value true (.array [] :: stack))
  | .value _ stack, .openObject => some (.key true [] stack)
  | .value true (.array [] :: stack), .closeArray => some (deliver (.array []) stack)
  | .key _ members stack, .string s => some (.colon members s stack)
  | .key true _ stack, .closeObject => some (deliver (.object []) stack)
  | .colon members name stack, .colon => some (.value false (.object members name :: stack))
  | .itemEnd items stack, .comma => some (.value false (.array items :: stack))
  | .itemEnd items stack, .closeArray => some (deliver (.array items.reverse) stack)
  | .memberEnd members stack, .comma => some (.key false members stack)
  | .memberEnd members stack, .closeObject => some (deliver (.object members.reverse) stack)
  | _, _ => none

def run : Expecting → List Token → Option Tree
  | .nothing t, [] => some t
  | _, [] => none
  | e, t :: ts =>
    match e.step t with
    | some next => run next ts
    | none => none

end Expecting

namespace Tree

/-- Read a document given as characters, with `none` for bytes that are no text. -/
def ofChars? (cs : List (Option Char)) : Option Tree :=
  (Token.scan cs).bind (Expecting.run (.value false []))

/-- Read a document given as text. -/
def ofText? (text : String) : Option Tree := ofChars? (text.toList.map some)

end Tree

end Provenance.Json

import Provenance.Json.Value

/-!
# Writing JSON

Two layouts: compact text without any blanks, and indented text with one member or item a
line. In strings only quotes, backslashes and control characters are escaped.
-/

namespace Provenance.Json

/-- The hexadecimal digit of a number below 16, in lower case. -/
def hexDigit (n : Nat) : Char := Nat.digitChar n

/-- A character as it stands between quotes. -/
def escape (c : Char) : List Char :=
  if c = '"' then ['\\', '"']
  else if c = '\\' then ['\\', '\\']
  else if c = '\n' then ['\\', 'n']
  else if c = '\r' then ['\\', 'r']
  else if c = '\t' then ['\\', 't']
  else if c = '\x08' then ['\\', 'b']
  else if c = '\x0c' then ['\\', 'f']
  else if c.toNat < 0x20 then
    ['\\', 'u', '0', '0', hexDigit (c.toNat / 16), hexDigit (c.toNat % 16)]
  else [c]

def quote (s : String) : List Char := '"' :: (s.toList.flatMap escape ++ ['"'])

/-- A number; one that is not finite is written as null. -/
def Number.print (n : Number) : List Char :=
  match n.numeral? with
  | some m => m.print
  | none => ['n', 'u', 'l', 'l']

mutual

def Value.print : Value → List Char
  | .null => ['n', 'u', 'l', 'l']
  | .bool true => ['t', 'r', 'u', 'e']
  | .bool false => ['f', 'a', 'l', 's', 'e']
  | .number n => n.print
  | .string s => quote s
  | .array items => '[' :: (printItems items ++ [']'])
  | .object members => '{' :: (printMembers members ++ ['}'])

def printItems : List Value → List Char
  | [] => []
  | [v] => v.print
  | v :: w :: rest => v.print ++ ',' :: printItems (w :: rest)

def printMembers : List (String × Value) → List Char
  | [] => []
  | [(k, v)] => quote k ++ ':' :: v.print
  | (k, v) :: m :: rest => quote k ++ ':' :: (v.print ++ ',' :: printMembers (m :: rest))

end

/-- A new line, indented by two blanks a level. -/
def indent (level : Nat) : List Char := '\n' :: List.replicate (2 * level) ' '

mutual

/-- A value as indented text that begins on a line of the given level. -/
def Value.printIndented (level : Nat) : Value → List Char
  | .array [] => ['[', ']']
  | .array (v :: rest) => '[' :: (indentItems (level + 1) (v :: rest) ++ indent level ++ [']'])
  | .object [] => ['{', '}']
  | .object (m :: rest) =>
    '{' :: (indentMembers (level + 1) (m :: rest) ++ indent level ++ ['}'])
  | v => v.print

/-- Items on lines of their own. -/
def indentItems (level : Nat) : List Value → List Char
  | [] => []
  | [v] => indent level ++ v.printIndented level
  | v :: w :: rest =>
    indent level ++ v.printIndented level ++ ',' :: indentItems level (w :: rest)

/-- Members on lines of their own. -/
def indentMembers (level : Nat) : List (String × Value) → List Char
  | [] => []
  | [(k, v)] => indent level ++ quote k ++ ':' :: ' ' :: v.printIndented level
  | (k, v) :: m :: rest =>
    indent level ++ quote k ++ ':' :: ' ' :: (v.printIndented level ++
      ',' :: indentMembers level (m :: rest))

end

def Value.compact (v : Value) : String := String.ofList v.print

/-- A value as indented text. -/
def Value.pretty (v : Value) : String := String.ofList (v.printIndented 0)

end Provenance.Json

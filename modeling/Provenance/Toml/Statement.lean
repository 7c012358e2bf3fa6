import Provenance.Toml.Quoted
import Provenance.Toml.Scalar
import Provenance.Toml.Table

/-!
# TOML statements

A document is a sequence of statements, one a line: a key with its value, the header of a
table, or the header of the next element of an array of tables. Blank lines and comments do
not count. Arrays may reach over several lines, inline tables may not.
-/

namespace Provenance.Toml

/-- A line of a document that says something. -/
inductive Statement
  | pair (path : List String) (value : Value)
  | header (path : List String)
  | element (path : List String)

namespace Statement

/-- Greatest number of arrays and inline tables in one another, and of parts of a key. -/
def nestingLimit : Nat := 79

/-- The character separates words on a line. -/
def isBlank (c : Char) : Bool := c = ' ' || c = '\t'

def skipBlanks (cs : List Char) : List Char := cs.dropWhile isBlank

/-- The character may stand in a bare key. -/
def isBareChar (c : Char) : Bool := c.isAlphanum || c = '_' || c = '-'

/-- Skip a comment, if there is one. -/
def skipComment : List Char → List Char
  | '#' :: cs => cs.dropWhile Quoted.isPlain
  | cs => cs

def newline? : List Char → Option (List Char)
  | '\n' :: rest => some rest
  | '\r' :: '\n' :: rest => some rest
  | _ => none

/-- Skip blanks, comments and newlines; `fuel` bounds the number of lines. -/
def skipLines : Nat → List Char → List Char
  | 0, cs => cs
  | fuel + 1, cs =>
    let rest := skipComment (skipBlanks cs)
    match newline? rest with
    | some rest => skipLines fuel rest
    | none => rest

/-- Skip blanks and a comment up to the end of the line or of the document. -/
def endLine? (cs : List Char) : Option (List Char) :=
  match skipComment (skipBlanks cs) with
  | [] => some []
  | rest => newline? rest

/-- Read one part of a key. -/
def readPart : Reader String
  | '"' :: rest => Quoted.readLine '"' true (rest.length + 1) [] rest
  | '\x27' :: rest => Quoted.readLine '\x27' false (rest.length + 1) [] rest
  | cs =>
    match cs.span isBareChar with
    | ([], _) => none
    | (part, rest) => some (String.ofList part, rest)

/-- Read a key with its parts, which points separate; `fuel` bounds their number. -/
def readPath : Nat → Reader (List String)
  | 0, _ => none
  | fuel + 1, cs => do
    let (part, rest) ← readPart (skipBlanks cs)
    match skipBlanks rest with
    | '.' :: rest =>
      let (parts, rest) ← readPath fuel rest
      return (part :: parts, rest)
    | rest => return ([part], rest)

def readKey : Reader (List String) := readPath nestingLimit

mutual

/-- Read a value that may hold `depth` levels of arrays and inline tables. -/
def readValue : (fuel depth : Nat) → Reader Value
  | 0, _, _ => none
  | fuel + 1, depth, cs =>
    match cs, depth with
    | '[' :: _, 0 => none
    | '\x7b' :: _, 0 => none
    | '[' :: rest, depth + 1 =>
      (readItems fuel depth (skipLines cs.length rest)).map fun (items, rest) =>
        (.array items, rest)
    | '\x7b' :: rest, depth + 1 =>
      match skipBlanks rest with
      | '\x7d' :: rest => some (.table [], rest)
      | rest => do
        let (pairs, rest) ← readPairs fuel depth rest
        let table ← Entries.ofPairs? pairs
        return (table, rest)
    | '"' :: _, _ => (Quoted.read cs).map fun (s, rest) => (.string s, rest)
    | '\x27' :: _, _ => (Quoted.read cs).map fun (s, rest) => (.string s, rest)
    | _, _ => Scalar.read cs

/-- Read the items of an array up to its end. -/
def readItems : (fuel depth : Nat) → Reader (List Value)
  | 0, _, _ => none
  | fuel + 1, depth, cs =>
    match cs with
    | ']' :: rest => some ([], rest)
    | cs => do
      let (item, rest) ← readValue fuel depth cs
      match skipLines (rest.length + 1) rest with
      | ',' :: rest =>
        let (items, rest) ← readItems fuel depth (skipLines (rest.length + 1) rest)
        return (item :: items, rest)
      | ']' :: rest => return ([item], rest)
      | _ => none

/-- Read the keys and values of an inline table up to its end. -/
def readPairs : (fuel depth : Nat) → Reader (List (List String × Value))
  | 0, _, _ => none
  | fuel + 1, depth, cs => do
    let (path, rest) ← readKey cs
    let '=' :: rest := rest | none
    let (value, rest) ← readValue fuel depth (skipBlanks rest)
    match skipBlanks rest with
    | ',' :: rest =>
      let (pairs, rest) ← readPairs fuel depth rest
      return ((path, value) :: pairs, rest)
    | '\x7d' :: rest => return ([(path, value)], rest)
    | _ => none

end

def read (cs : List Char) : Option (Statement × List Char) :=
  match cs with
  | '[' :: '[' :: rest => do
    let (path, rest) ← readKey rest
    let ']' :: ']' :: rest := rest | none
    return (.element path, rest)
  | '[' :: rest => do
    let (path, rest) ← readKey rest
    let ']' :: rest := rest | none
    return (.header path, rest)
  | cs => do
    let (path, rest) ← readKey cs
    let '=' :: rest := rest | none
    let (value, rest) ← readValue (3 * rest.length + 3) nestingLimit (skipBlanks rest)
    return (.pair path value, rest)

/-- Read the statements of a document; `fuel` bounds the number of lines. -/
def readAll : Nat → List Char → Option (List Statement)
  | 0, _ => none
  | fuel + 1, cs =>
    match skipLines (cs.length + 1) cs with
    | [] => some []
    | cs => do
      let (statement, rest) ← read cs
      let rest ← endLine? rest
      let statements ← readAll fuel rest
      return statement :: statements

end Statement

end Provenance.Toml

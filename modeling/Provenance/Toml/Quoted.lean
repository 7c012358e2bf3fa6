import Provenance.Json.Token

/-!
# TOML strings

Four kinds of strings: between single or triple, double or simple quotes. Double quotes admit
escapes. A string of several lines may begin with a newline, which does not count, and a
backslash at the end of its line joins it with the next text. Readers take the characters
after the opening quotes and return the text with what follows the closing quotes.
-/

namespace Provenance.Toml

/-- What a reader returns: a result and the rest of the input. -/
abbrev Reader (α : Type) := List Char → Option (α × List Char)

namespace Quoted

/-- A character that may stand in a string or comment as it is. -/
def isPlain (c : Char) : Bool := c = '\t' || (0x20 ≤ c.toNat && c.toNat ≠ 0x7F)

/-- Value of some hexadecimal digits. -/
def hexNumber? (digits : List Char) : Option Nat :=
  digits.foldlM (fun n c => (Json.Token.hexValue? c).map (n * 16 + ·)) 0

/-- The character with a code point given in hexadecimal. -/
def codePoint? (digits : List Char) : Option Char :=
  (hexNumber? digits).bind fun n =>
    if h : n.isValidChar then some (Char.ofNatAux n h) else none

/-- The character of a one-letter escape. -/
def unescape? (c : Char) : Option Char :=
  match c with
  | 'b' => some '\x08'
  | 't' => some '\t'
  | 'n' => some '\n'
  | 'f' => some '\x0c'
  | 'r' => some '\r'
  | '"' => some '"'
  | '\\' => some '\\'
  | _ => none

/-- Read an escape after its backslash. -/
def readEscape : Reader Char
  | 'u' :: a :: b :: c :: d :: rest => (codePoint? [a, b, c, d]).map (·, rest)
  | 'U' :: a :: b :: c :: d :: e :: f :: g :: h :: rest =>
    (codePoint? [a, b, c, d, e, f, g, h]).map (·, rest)
  | c :: rest => (unescape? c).map (·, rest)
  | [] => none

/-- Skip blanks and newlines after a backslash that ends its line; `none` if it does not. -/
def skipLineEnd? (cs : List Char) : Option (List Char) :=
  let blank (c : Char) : Bool := c = ' ' || c = '\t'
  let rec skip : List Char → List Char
    | '\r' :: '\n' :: rest => skip rest
    | c :: rest => if blank c || c = '\n' then skip rest else c :: rest
    | [] => []
  match cs.dropWhile blank with
  | '\n' :: rest => some (skip rest)
  | '\r' :: '\n' :: rest => some (skip rest)
  | _ => none

/-- Read a string of one line; `escapes` tells double quotes from simple ones. -/
def readLine (quote : Char) (escapes : Bool) : Nat → List Char → Reader String
  | 0, _, _ => none
  | fuel + 1, done, cs =>
    match cs with
    | [] => none
    | c :: rest =>
      if c = quote then some (String.ofList done.reverse, rest)
      else if escapes ∧ c = '\\' then
        match readEscape rest with
        | some (d, rest) => readLine quote escapes fuel (d :: done) rest
        | none => none
      else if isPlain c then readLine quote escapes fuel (c :: done) rest
      else none

/-- Split leading quotes, at most five, from what follows. -/
def leadingQuotes (quote : Char) (cs : List Char) : Nat × List Char :=
  let n := min 5 (cs.takeWhile (· = quote)).length
  (n, cs.drop n)

/-- Read a string of several lines, which three quotes end; up to two more belong to it. -/
def readBlock (quote : Char) (escapes : Bool) : Nat → List Char → Reader String
  | 0, _, _ => none
  | fuel + 1, done, cs =>
    match cs with
    | [] => none
    | '\r' :: '\n' :: rest => readBlock quote escapes fuel ('\n' :: done) rest
    | c :: rest =>
      if c = quote then
        let (n, rest) := leadingQuotes quote (c :: rest)
        let inside := if 3 ≤ n then n - 3 else n
        let done := List.replicate inside quote ++ done
        if 3 ≤ n then some (String.ofList done.reverse, rest)
        else readBlock quote escapes fuel done rest
      else if escapes ∧ c = '\\' then
        match skipLineEnd? rest, readEscape rest with
        | some rest, _ => readBlock quote escapes fuel done rest
        | none, some (d, rest) => readBlock quote escapes fuel (d :: done) rest
        | none, none => none
      else if isPlain c || c = '\n' then readBlock quote escapes fuel (c :: done) rest
      else none

/-- Leave out a newline at the beginning. -/
def dropNewline : List Char → List Char
  | '\n' :: rest => rest
  | '\r' :: '\n' :: rest => rest
  | cs => cs

/-- Read a string of any kind. -/
def read : Reader String
  | '"' :: '"' :: '"' :: rest => readBlock '"' true (rest.length + 1) [] (dropNewline rest)
  | '\x27' :: '\x27' :: '\x27' :: rest =>
    readBlock '\x27' false (rest.length + 1) [] (dropNewline rest)
  | '"' :: rest => readLine '"' true (rest.length + 1) [] rest
  | '\x27' :: rest => readLine '\x27' false (rest.length + 1) [] rest
  | _ => none

end Quoted

end Provenance.Toml

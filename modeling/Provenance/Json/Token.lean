import Provenance.Json.Tree

/-!
# JSON tokens

The scanner reads a document character by character. Between quotes it collects code points,
where an escape may give one half of a surrogate pair; halves are joined when the string
ends. Outside quotes a run of letters, digits, signs and points is one word, which must be a
name or a numeral.
-/

namespace Provenance.Json

inductive Token
  | openArray
  | closeArray
  | openObject
  | closeObject
  | comma
  | colon
  | string (s : Option String)
  | scalar (t : Tree)

namespace Token

/-- Stands among code points for bytes that are no text. -/
def malformed : Nat := 0x110000

/-- The number is the first half of a surrogate pair. -/
def isHigh (n : Nat) : Bool := 0xD800 ≤ n && n < 0xDC00

/-- The number is the second half of a surrogate pair. -/
def isLow (n : Nat) : Bool := 0xDC00 ≤ n && n < 0xE000

/-- The text of code points given from the last to the first, put in front of `done`. -/
def joinOnto (done : List Char) : List Nat → Option (List Char)
  | [] => some done
  | low :: rest =>
    if isLow low then
      match rest with
      | high :: rest =>
        if isHigh high then
          joinOnto (Char.ofNat (0x10000 + (high - 0xD800) * 0x400 + (low - 0xDC00)) :: done) rest
        else
          none
      | [] => none
    else if isHigh low || malformed ≤ low then none
    else joinOnto (Char.ofNat low :: done) rest

/-- The text of a string whose code points are given from the last to the first. -/
def textOf (reversed : List Nat) : Option String :=
  (joinOnto [] reversed).map String.ofList

def ofWord? (cs : List Char) : Option Token :=
  if cs = ['n', 'u', 'l', 'l'] then some (.scalar .null)
  else if cs = ['t', 'r', 'u', 'e'] then some (.scalar (.bool true))
  else if cs = ['f', 'a', 'l', 's', 'e'] then some (.scalar (.bool false))
  else (Numeral.ofChars? cs).map fun n => .scalar (.numeral n)

/-- The token of a character that stands for itself. -/
def ofPunctuation? (c : Char) : Option Token :=
  match c with
  | '[' => some .openArray
  | ']' => some .closeArray
  | '{' => some .openObject
  | '}' => some .closeObject
  | ',' => some .comma
  | ':' => some .colon
  | _ => none

/-- A character that may separate tokens. -/
def isSpace (c : Char) : Bool := c = ' ' || c = '\n' || c = '\r' || c = '\t'

def isWordChar (c : Char) : Bool := c.isAlphanum || c = '+' || c = '-' || c = '.'

/-- Value of a hexadecimal digit. -/
def hexValue? (c : Char) : Option Nat :=
  if '0' ≤ c ∧ c ≤ '9' then some (c.toNat - '0'.toNat)
  else if 'a' ≤ c ∧ c ≤ 'f' then some (c.toNat - 'a'.toNat + 10)
  else if 'A' ≤ c ∧ c ≤ 'F' then some (c.toNat - 'A'.toNat + 10)
  else none

/-- The character that a one-letter escape denotes. -/
def unescape? (c : Char) : Option Char :=
  match c with
  | '"' => some '"'
  | '\\' => some '\\'
  | '/' => some '/'
  | 'b' => some '\x08'
  | 'f' => some '\x0c'
  | 'n' => some '\n'
  | 'r' => some '\r'
  | 't' => some '\t'
  | _ => none

/-- Where the scanner stands; what it has collected is kept in reverse. -/
inductive Scan
  /-- Between tokens. -/
  | outside
  /-- In a word. -/
  | word (chars : List Char)
  /-- Between quotes. -/
  | quoted (points : List Nat)
  /-- After a backslash. -/
  | escaped (points : List Nat)
  /-- In a numeric escape that lacks `missing + 1` digits. -/
  | hex (points : List Nat) (missing : Nat) (value : Nat)

/-- Read one character outside quotes and words. -/
def outside (done : List Token) (c : Char) : Option (Scan × List Token) :=
  if isSpace c then some (.outside, done)
  else if c = '"' then some (.quoted [], done)
  else if isWordChar c then some (.word [c], done)
  else (ofPunctuation? c).map fun t => (.outside, t :: done)

/-- Read one character, or `none` for bytes that are no text. Tokens are kept in reverse. -/
def step (done : List Token) : Scan → Option Char → Option (Scan × List Token)
  | .outside, some c => outside done c
  | .word chars, some c =>
    if isWordChar c then some (.word (c :: chars), done)
    else (ofWord? chars.reverse).bind fun t => outside (t :: done) c
  | .quoted points, some c =>
    if c = '"' then some (.outside, .string (textOf points) :: done)
    else if c = '\\' then some (.escaped points, done)
    else if c.toNat < 0x20 then none
    else some (.quoted (c.toNat :: points), done)
  | .quoted points, none => some (.quoted (malformed :: points), done)
  | .escaped points, some c =>
    if c = 'u' then some (.hex points 3 0, done)
    else (unescape? c).map fun d => (.quoted (d.toNat :: points), done)
  | .hex points missing value, some c =>
    (hexValue? c).map fun d =>
      match missing with
      | 0 => (.quoted ((value * 16 + d) :: points), done)
      | m + 1 => (.hex points m (value * 16 + d), done)
  | _, none => none

/-- Read the rest of a document from where the scanner stands. -/
def scanFrom (state : Scan) (done : List Token) : List (Option Char) → Option (List Token)
  | [] =>
    match state with
    | .outside => some done.reverse
    | .word chars => (ofWord? chars.reverse).map fun t => (t :: done).reverse
    | _ => none
  | c :: cs =>
    match step done state c with
    | some (next, done) => scanFrom next done cs
    | none => none

def scan (cs : List (Option Char)) : Option (List Token) := scanFrom .outside [] cs

end Token

end Provenance.Json

import Provenance.Shell.Arithmetic
import Provenance.Text.Utf8

/-!
# Escapes

What a backslash and the characters behind it stand for in the texts that `echo` and `printf`
write.
-/

namespace Provenance.Shell.Escape

/-- The byte that a letter behind a backslash stands for. -/
def letter? (c : Char) : Option Char :=
  match c with
  | 'a' => some '\x07'
  | 'b' => some '\x08'
  | 'e' => some '\x1b'
  | 'f' => some '\x0c'
  | 'n' => some '\n'
  | 'r' => some '\r'
  | 't' => some '\t'
  | 'v' => some '\x0b'
  | '\\' => some '\\'
  | _ => none

def byte (n : Nat) : Char := Char.ofNat (n % 256)

/-- Take at most so many digits of a base; their value, and what follows. -/
def takeDigits (base count : Nat) (s : Octets) : Nat × Octets :=
  let digits := (s.take count).takeWhile fun c => (Integer.digit? base c).isSome
  (Integer.valueOf base digits, s.drop digits.length)

/-- What an escape is. -/
inductive Meaning
  /-- Some bytes, and the text behind the escape. -/
  | bytes (s : Octets) (rest : Octets)
  /-- Nothing more is written. -/
  | stop
  | invalid (complaint : String)

/-- A number in base sixteen with so many digits. -/
def hexadecimal (width n : Nat) : Octets :=
  let digits := Nat.toDigits 16 n
  List.replicate (width - digits.length) '0' ++ digits

/-- The complaint about an escape without digits. -/
def missingDigits : String := "missing hexadecimal number in escape"

/-- What the number of a character means that was given with so many digits behind a letter. -/
def character (letter : Char) (width : Nat) (s : Octets) : Meaning :=
  let (n, after) := takeDigits 16 width s
  if after.length + width ≠ s.length then .invalid missingDigits
  else if 0xD800 ≤ n ∧ n ≤ 0xDFFF then
    .invalid ("invalid universal character name \\" ++
      String.ofList (letter :: hexadecimal width n))
  else if 0x10FFFF < n then
    .bytes ('\\' :: letter :: (hexadecimal width n).map Char.toUpper) after
  else .bytes (Octets.ofText (String.ofList [Char.ofNat n])) after

/-- An escape in a format, behind its backslash. With `hex`, bytes and code points may be given
in base sixteen. -/
def inFormat (hex : Bool) (s : Octets) : Meaning :=
  match s with
  | [] => .bytes ['\\'] []
  | c :: rest =>
    if (Integer.digit? 8 c).isSome then
      let (n, rest) := takeDigits 8 3 (c :: rest)
      .bytes [byte n] rest
    else
      match letter? c with
      | some b => .bytes [b] rest
      | none =>
        if hex then
          match c with
          | 'c' => .stop
          | '"' => .bytes ['"'] rest
          | 'x' =>
            let (n, after) := takeDigits 16 2 rest
            if after.length = rest.length then .invalid missingDigits else .bytes [byte n] after
          | 'u' => character 'u' 4 rest
          | 'U' => character 'U' 8 rest
          | _ => .bytes ['\\', c] rest
        else .bytes ['\\'] (c :: rest)

/-- An escape in an argument, where a number in base eight may begin with one more zero. -/
def inArgument (hex : Bool) (s : Octets) : Meaning :=
  match s with
  | 'c' :: _ => .stop
  | '0' :: rest =>
    let (n, rest) := takeDigits 8 3 rest
    .bytes [byte n] rest
  | s => inFormat hex s

/-- An escape in a text of the program `echo`, where nothing is invalid. -/
def inEcho (s : Octets) : Meaning :=
  match s with
  | 'c' :: _ => .stop
  | 'x' :: rest =>
    let (n, after) := takeDigits 16 2 rest
    .bytes (if after.length = rest.length then ['\\', 'x'] else [byte n]) after
  | '"' :: rest => .bytes ['\\', '"'] rest
  | s => inArgument false s

/-- How the replacement of escapes has ended. -/
inductive Finish
  | whole
  | stopped
  | invalid (complaint : String)

/-- Nothing of the text was left out. -/
def Finish.isWhole : Finish → Bool
  | .whole => true
  | _ => false

/-- An argument with its escapes replaced, as far as it is to be written. -/
def replaceAll (meaning : Octets → Meaning) : Nat → Octets → Octets × Finish
  | 0, _ => ([], .whole)
  | _ + 1, [] => ([], .whole)
  | fuel + 1, '\\' :: rest =>
    match meaning rest with
    | .bytes s rest =>
      let (more, finish) := replaceAll meaning fuel rest
      (s ++ more, finish)
    | .stop => ([], .stopped)
    | .invalid complaint => ([], .invalid complaint)
  | fuel + 1, c :: rest =>
    let (more, finish) := replaceAll meaning fuel rest
    (c :: more, finish)

end Provenance.Shell.Escape

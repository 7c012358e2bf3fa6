import Provenance.Power
import Provenance.Text.Utf8

/-!
# Strings of bytes

The shell and its tools do not care how text is encoded: what they handle are bytes. A string
of bytes is kept as a list of characters, each of which is the one whose number is the byte,
so that letters of ASCII stand for themselves.
-/

namespace Provenance.Shell

/-- A string of bytes, each as the character of its number. -/
abbrev Octets := List Char

namespace Octets

def ofBytes (bytes : List UInt8) : Octets := bytes.map fun b => Char.ofNat b.toNat

def toBytes (s : Octets) : List UInt8 := s.map fun c => UInt8.ofNat c.toNat

def ofText (text : String) : Octets := ofBytes (Text.Utf8.encode text.toList)

/-- The text that a string encodes, where what is malformed is replaced. -/
def toText (s : Octets) : String := String.ofList (Text.Utf8.decodeLossy s.toBytes)

/-- The string is put together from pieces with a separator between them. -/
def joined (separator : Octets) (pieces : List Octets) : Octets :=
  (pieces.intersperse separator).flatten

/-- The lines of a string without their newlines; a newline at the end begins no line. -/
def lines (s : Octets) : List Octets :=
  let step : Octets × List Octets → Char → Octets × List Octets
    | (current, done), c =>
      if c = '\n' then ([], current.reverse :: done) else (c :: current, done)
  match s.foldl step ([], []) with
  | ([], done) => done.reverse
  | (current, done) => (current.reverse :: done).reverse

/-- Cut a string at every occurrence of a character. -/
def splitAt (separator : Char) (s : Octets) : List Octets :=
  let step : Octets × List Octets → Char → Octets × List Octets
    | (current, done), c =>
      if c = separator then ([], current.reverse :: done) else (c :: current, done)
  let (current, done) := s.foldl step ([], [])
  (current.reverse :: done).reverse

/-- The characters that a string encodes, each with its bytes, at most `fuel` of them, behind those
in `done`, which are in reverse. A byte that encodes none stands alone. -/
def charactersOnto : Nat → (done : List Octets) → Octets → List Octets
  | 0, done, _ => done.reverse
  | _ + 1, done, [] => done.reverse
  | fuel + 1, done, c :: cs =>
    let width := if c < '\x80' then 1 else if c < '\xe0' then 2 else if c < '\xf0' then 3 else 4
    let piece := (c :: cs).take width
    match Text.Utf8.decode? (toBytes piece) with
    | some [_] => charactersOnto fuel (piece :: done) ((c :: cs).drop width)
    | _ => charactersOnto fuel ([c] :: done) cs

/-- The characters that a string encodes, each with its bytes. -/
def characters (s : Octets) : List Octets := charactersOnto s.length [] s

/-- A string without the given characters at its end. -/
def trimEnd (p : Char → Bool) (s : Octets) : Octets := (s.reverse.dropWhile p).reverse

/-- The number of bytes that are taken from what has no end. -/
def endless : Nat := 2 ^ 21

end Octets

end Provenance.Shell

/-!
# UTF-8

The bytes of a text, and the text of bytes. Bytes that are no text are not refused: each
longest beginning of a character that is broken off counts as one malformed piece, as does
each byte that begins no character.

## Implementation notes

`Utf8.decode` is a machine that reads one byte at a time. It collects what it has read in
reverse, so that its depth does not grow with the input.
-/

namespace Provenance.Text.Utf8

def encode (cs : List Char) : List UInt8 := cs.flatMap String.utf8EncodeChar

inductive State
  /-- Between characters. -/
  | between
  /-- In a character that lacks `missing + 1` bytes, the next of them in the given range. -/
  | inside (missing low high value : Nat)
  deriving DecidableEq, Repr

/-- Read a byte that should begin a character. -/
def readFirst (done : List (Option Char)) (byte : UInt8) : State × List (Option Char) :=
  let b := byte.toNat
  if b < 0x80 then (.between, some (Char.ofNat b) :: done)
  else if b < 0xC2 then (.between, none :: done)
  else if b < 0xE0 then (.inside 0 0x80 0xBF (b - 0xC0), done)
  else if b = 0xE0 then (.inside 1 0xA0 0xBF 0, done)
  else if b = 0xED then (.inside 1 0x80 0x9F (b - 0xE0), done)
  else if b < 0xF0 then (.inside 1 0x80 0xBF (b - 0xE0), done)
  else if b = 0xF0 then (.inside 2 0x90 0xBF 0, done)
  else if b < 0xF4 then (.inside 2 0x80 0xBF (b - 0xF0), done)
  else if b = 0xF4 then (.inside 2 0x80 0x8F 4, done)
  else (.between, none :: done)

def step : State → List (Option Char) → UInt8 → State × List (Option Char)
  | .between, done, byte => readFirst done byte
  | .inside missing low high value, done, byte =>
    let b := byte.toNat
    if low ≤ b ∧ b ≤ high then
      let value := value * 0x40 + b % 0x40
      match missing with
      | 0 => (.between, some (Char.ofNat value) :: done)
      | m + 1 => (.inside m 0x80 0xBF value, done)
    else
      readFirst (none :: done) byte

def decodeFrom : State → List (Option Char) → List UInt8 → List (Option Char)
  | .between, done, [] => done.reverse
  | .inside .., done, [] => (none :: done).reverse
  | state, done, byte :: bytes =>
    let (state, done) := step state done byte
    decodeFrom state done bytes

/-- The characters of a text given as bytes, with `none` for each malformed piece. -/
def decode (bytes : List UInt8) : List (Option Char) := decodeFrom .between [] bytes

/-- Stands in a text for a malformed piece. -/
def replacement : Char := '\uFFFD'

/-- The text of some bytes, with a replacement for each malformed piece. -/
def decodeLossy (bytes : List UInt8) : List Char := (decode bytes).map (·.getD replacement)

/-- The text of some bytes, unless a piece of them is malformed. -/
def decode? (bytes : List UInt8) : Option (List Char) := (decode bytes).mapM id

@[simp]
theorem encode_nil : encode [] = [] := rfl

@[simp]
theorem encode_cons (c : Char) (cs : List Char) :
    encode (c :: cs) = String.utf8EncodeChar c ++ encode cs := rfl

@[simp]
theorem encode_append (xs ys : List Char) : encode (xs ++ ys) = encode xs ++ encode ys := by
  simp [encode]

end Provenance.Text.Utf8

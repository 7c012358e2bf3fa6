import Provenance.Power

/-!
# Variable-length numbers

A segment of the mappings text is a sequence of signed numbers. Each is written in digits of
five bits, least significant first, where all digits but the last carry a continuation mark;
the lowest bit of the assembled number is its sign. A number is assembled in a signed
register of 64 bits.

Only the 64 letters of the alphabet are meant to occur. Any other byte nevertheless acts as
a digit with a continuation mark, and is not an error by itself.
-/

namespace Provenance.Mappings

/-- Why a segment, or a reference in it, cannot be decoded. -/
inductive MappingsError
  | overflow
  | leftover
  | segmentSize (count : Nat)
  | badSource (id : UInt32)
  | badName (id : UInt32)
  deriving DecidableEq, Repr

/-- What is shown to the user. -/
def MappingsError.message : MappingsError → String
  | .overflow => "vlq decode caused an overflow"
  | .leftover => "leftover cur/shift in vlq decode"
  | .segmentSize count => "got " ++ toString count ++ " segments, expected 4 or 5"
  | .badSource id => "bad reference to source #" ++ toString id
  | .badName id => "bad reference to name #" ++ toString id

/-- Five bits of a number, and whether more digits follow. -/
structure Digit where
  bits : Nat
  more : Bool
  deriving DecidableEq, Repr

/-- Index of a letter in the alphabet of 64 letters. -/
def letterIndex? (c : Char) : Option Nat :=
  if 'A' ≤ c ∧ c ≤ 'Z' then some (c.toNat - 'A'.toNat)
  else if 'a' ≤ c ∧ c ≤ 'z' then some (c.toNat - 'a'.toNat + 26)
  else if '0' ≤ c ∧ c ≤ '9' then some (c.toNat - '0'.toNat + 52)
  else if c = '+' then some 62
  else if c = '/' then some 63
  else none

/-- The digits that a character stands for: one for each of its bytes. -/
def digits (c : Char) : List Digit :=
  match letterIndex? c with
  | some i => [⟨i % 32, 32 ≤ i⟩]
  | none =>
    if c = '\x7f' then [⟨30, true⟩]
    else List.replicate c.utf8Size ⟨31, true⟩

/-- The number whose assembled bits are `raw`. -/
def signedValue (raw : Nat) : Int :=
  let register := Int.bmod raw (2 ^ 64)
  if raw % 2 = 0 then register / 2 else -(register / 2)

/-- Decode digits, where `raw` holds the bits of the current number below `shift`. -/
def readNumbers : List Digit → (raw shift : Nat) → Except MappingsError (List Int)
  | [], _, shift => if shift = 0 then .ok [] else .error .leftover
  | d :: ds, raw, shift =>
    if 64 ≤ shift then .error .overflow
    else if d.more then readNumbers ds (raw + d.bits * 2 ^ shift) (shift + 5)
    else (readNumbers ds 0 0).map (signedValue (raw + d.bits * 2 ^ shift) :: ·)

def numbers (segment : List Char) : Except MappingsError (List Int) :=
  readNumbers (segment.flatMap digits) 0 0

end Provenance.Mappings

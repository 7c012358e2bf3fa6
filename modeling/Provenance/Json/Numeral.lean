import Provenance.Text.Decimal

/-!
# JSON numerals

A numeral keeps the digits of a number as they are written, since what it denotes depends on
its form: only digits without fraction and exponent denote an integer.
-/

namespace Provenance.Json

open Provenance.Text

/-- A number as it is written. -/
structure Numeral where
  negative : Bool
  whole : List Char
  fraction : Option (List Char)
  exponent : Option (Bool × List Char)
  deriving DecidableEq, Repr

namespace Numeral

/-- The character is an ASCII digit. -/
def isDigit (c : Char) : Bool := (digit? c).isSome

def ofNat (n : Nat) : Numeral := ⟨false, decimal n, none, none⟩

def ofInt (n : Int) : Numeral := ⟨n < 0, decimal n.natAbs, none, none⟩

/-- Read an optional exponent that ends the text. -/
def readExponent : List Char → Option (Option (Bool × List Char))
  | [] => some none
  | e :: cs =>
    if e = 'e' ∨ e = 'E' then
      let (negative, digits) := match cs with
        | '+' :: ds => (false, ds)
        | '-' :: ds => (true, ds)
        | ds => (false, ds)
      if digits ≠ [] ∧ digits.all isDigit then some (some (negative, digits)) else none
    else
      none

/-- Read an optional fraction and an optional exponent. -/
def readTail (negative : Bool) (whole : List Char) : List Char → Option Numeral
  | '.' :: cs => do
    let (digits, rest) := cs.span isDigit
    if digits = [] then none
    else
      let exponent ← readExponent rest
      return ⟨negative, whole, some digits, exponent⟩
  | cs => do
    let exponent ← readExponent cs
    return ⟨negative, whole, none, exponent⟩

/-- Read a numeral without its sign. A leading zero stands alone. -/
def readUnsigned (negative : Bool) (cs : List Char) : Option Numeral :=
  match cs.span isDigit with
  | ([], _) => none
  | (['0'], rest) => readTail negative ['0'] rest
  | ('0' :: _, _) => none
  | (whole, rest) => readTail negative whole rest

/-- Read a whole text as a numeral. -/
def ofChars? : List Char → Option Numeral
  | '-' :: cs => readUnsigned true cs
  | cs => readUnsigned false cs

def print (n : Numeral) : List Char :=
  (if n.negative then ['-'] else []) ++ n.whole ++
    (n.fraction.elim [] ('.' :: ·)) ++
    (n.exponent.elim [] fun (negative, digits) =>
      'e' :: (if negative then '-' else '+') :: digits)

/-- The integer that a numeral without fraction and exponent denotes. Minus zero is none. -/
def integer? (n : Numeral) : Option Int :=
  if n.fraction.isNone ∧ n.exponent.isNone then
    let magnitude := n.whole.foldl (fun v c => v * 10 + (digit? c).getD 0) 0
    if n.negative then (if magnitude = 0 then none else some (-(magnitude : Int)))
    else some magnitude
  else
    none

end Numeral

end Provenance.Json

/-!
# Decimal numbers

Reading and writing natural numbers in decimal. A number to be read may carry one leading
plus sign and any number of leading zeros, and must not exceed a bound; digits are examined
from the left, so the first defect met is the one reported.
-/

namespace Provenance.Text

/-- Why a text is no decimal number. -/
inductive DecimalError
  | empty
  | invalidDigit
  | tooLarge
  deriving DecidableEq, Repr

/-- What is shown to the user for each defect. -/
def DecimalError.message : DecimalError → String
  | .empty => "cannot parse integer from empty string"
  | .invalidDigit => "invalid digit found in string"
  | .tooLarge => "number too large to fit in target type"

def digit? (c : Char) : Option Nat :=
  if '0' ≤ c ∧ c ≤ '9' then some (c.toNat - '0'.toNat) else none

/-- Continue the number `value` with more digits, staying within `bound`. -/
def readDigits (bound : Nat) : Nat → List Char → Except DecimalError Nat
  | value, [] => .ok value
  | value, c :: cs =>
    match digit? c with
    | none => .error .invalidDigit
    | some d =>
      if bound < value * 10 + d then .error .tooLarge
      else readDigits bound (value * 10 + d) cs

/-- Read a decimal number of at most `bound`, with an optional plus sign. -/
def readDecimal (bound : Nat) : List Char → Except DecimalError Nat
  | [] => .error .empty
  | ['+'] => .error .invalidDigit
  | '+' :: cs => readDigits bound 0 cs
  | cs => readDigits bound 0 cs

/-- The decimal digits of a number, without leading zeros. -/
def decimal (n : Nat) : List Char := Nat.toDigits 10 n

end Provenance.Text

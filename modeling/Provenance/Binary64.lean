import Provenance.Power

/-!
# Binary floating point numbers

A number of 64 bits in the binary interchange format, kept as its bits and computed with in
exact natural arithmetic: a finite magnitude is a fraction, and every result is the fraction
rounded to the nearest number of the format, a tie going to the even neighbour.
-/

namespace Provenance

/-- A binary floating point number of 64 bits. -/
structure Binary64 where
  bits : UInt64
  deriving DecidableEq, Repr, Inhabited

namespace Binary64

/-- The quotient rounded to the nearest integer, a tie going to the even one. -/
def roundEven (num den : Nat) : Nat :=
  let q := num / den
  let r := num % den
  if 2 * r < den then q
  else if den < 2 * r then q + 1
  else q + q % 2

/-- The quotient rounded to the nearest integer, a tie going up. -/
def roundUp (num den : Nat) : Nat := (2 * num + den) / (2 * den)

def negative (x : Binary64) : Bool := 2 ^ 63 ≤ x.bits.toNat

def exponentField (x : Binary64) : Nat := x.bits.toNat / 2 ^ 52 % 2 ^ 11

def fractionField (x : Binary64) : Nat := x.bits.toNat % 2 ^ 52

/-- The number is neither infinite nor a NaN. -/
def isFinite (x : Binary64) : Bool := x.exponentField < 2047

def isNaN (x : Binary64) : Bool := x.exponentField = 2047 ∧ x.fractionField ≠ 0

/-- Mantissa of a finite number, with the hidden bit of a normal one. -/
def mantissa (x : Binary64) : Nat :=
  if x.exponentField = 0 then x.fractionField else 2 ^ 52 + x.fractionField

/-- Exponent of the last place of a finite number, plus 1074. -/
def scale (x : Binary64) : Nat := x.exponentField - 1

/-- Numerator and denominator of the magnitude of a finite number. -/
def fraction (x : Binary64) : Nat × Nat :=
  if 1074 ≤ x.scale then (x.mantissa * 2 ^ (x.scale - 1074), 1)
  else (x.mantissa, 2 ^ (1074 - x.scale))

/-- The number with the given sign and the other bits of a magnitude. -/
def signed (negative : Bool) (magnitude : Nat) : Binary64 :=
  ⟨UInt64.ofNat (if negative then 2 ^ 63 + magnitude else magnitude)⟩

/-- Least scale at which the quotient of two positive numbers needs at most 53 bits. -/
def scaleFor (num den : Nat) : Nat :=
  let guess := num.log2 + 1074 - (den.log2 + 52)
  if num * 2 ^ 1074 < den * 2 ^ guess * 2 ^ 52 then guess - 1
  else guess

/-- The quotient of two natural numbers, rounded to nearest; infinite when it is too large. -/
def ofRatio (negative : Bool) (num den : Nat) : Binary64 :=
  if num = 0 ∨ den = 0 then signed negative 0
  else
    let s := scaleFor num den
    let m := roundEven (num * 2 ^ 1074) (den * 2 ^ s)
    let magnitude := s * 2 ^ 52 + m
    signed negative (if 2047 * 2 ^ 52 ≤ magnitude then 2047 * 2 ^ 52 else magnitude)

/-- A natural number, rounded to nearest. -/
def ofNat (n : Nat) : Binary64 := ofRatio false n 1

def ofInt (n : Int) : Binary64 := ofRatio (n < 0) n.natAbs 1

def zero : Binary64 := ⟨0⟩

/-- The product of two finite numbers, rounded to nearest. -/
def times (x y : Binary64) : Binary64 :=
  ofRatio (x.negative != y.negative) (x.fraction.1 * y.fraction.1) (x.fraction.2 * y.fraction.2)

/-- The quotient of two finite numbers, rounded to nearest. -/
def dividedBy (x y : Binary64) : Binary64 :=
  ofRatio (x.negative != y.negative) (x.fraction.1 * y.fraction.2) (x.fraction.2 * y.fraction.1)

/-- The number is greater than zero. -/
def isPositive (x : Binary64) : Bool := !x.negative && !x.isNaN && x.bits ≠ 0

/-- The number is zero of either sign. -/
def isZero (x : Binary64) : Bool := x.mantissa = 0 ∧ x.exponentField = 0

/-- The same magnitude with the opposite sign. -/
def negate (x : Binary64) : Binary64 := ⟨x.bits ^^^ 0x8000000000000000⟩

/-- Magnitude of a finite number, rounded to an integer, a half going away from zero. -/
def rounded (x : Binary64) : Nat :=
  let (num, den) := x.fraction
  roundUp num den

end Binary64

end Provenance

import Provenance.Binary64

/-!
# Shortest decimal form

The decimal digits of a finite number are the fewest that still read back as that number,
and among those the nearest to it. For a growing number of digits the two neighbours of the
number on the decimal grid are tried; seventeen digits always suffice.
-/

namespace Provenance.Binary64

/-- A positive decimal fraction: the digits of `digits`, scaled by a power of ten. -/
structure Decimal where
  digits : Nat
  exponent : Int
  deriving DecidableEq, Repr

namespace Decimal

/-- Numerator and denominator. -/
def fraction (d : Decimal) : Nat × Nat :=
  if 0 ≤ d.exponent then (d.digits * 10 ^ d.exponent.toNat, 1)
  else (d.digits, 10 ^ (-d.exponent).toNat)

/-- The number nearest to a decimal fraction. -/
def nearest (d : Decimal) : Binary64 := ofRatio false d.fraction.1 d.fraction.2

/-- Number of decimal digits of a positive number. -/
def width (n : Nat) : Nat := (Nat.toDigits 10 n).length

/-- Remove trailing zeros; `fuel` bounds their number. -/
def reduce : Nat → Decimal → Decimal
  | 0, d => d
  | fuel + 1, d =>
    if d.digits ≠ 0 ∧ d.digits % 10 = 0 then reduce fuel ⟨d.digits / 10, d.exponent + 1⟩ else d

end Decimal

/-- The largest exponent `e` with `10 ^ e` at most the quotient, for positive numbers. -/
def decimalExponent (num den : Nat) : Int :=
  if den ≤ num then (Decimal.width (num / den) : Int) - 1
  else
    let k := Decimal.width (den / num)
    if den ≤ num * 10 ^ (k - 1) then 1 - (k : Int) else -(k : Int)

/-- The neighbours of the quotient on the grid of multiples of `10 ^ exponent`. -/
def neighbours (num den : Nat) (exponent : Int) : Decimal × Decimal :=
  let q := if 0 ≤ exponent then num / (den * 10 ^ exponent.toNat)
    else num * 10 ^ (-exponent).toNat / den
  (⟨q, exponent⟩, ⟨q + 1, exponent⟩)

/-- Twice the distance of the lower neighbour is less than, equal to or more than one step. -/
def nearer (num den : Nat) (lower upper : Decimal) : Decimal :=
  let (ln, ld) := lower.fraction
  let (un, ud) := upper.fraction
  let below := (num * ld - ln * den) * ud
  let above := (un * den - num * ud) * ld
  if below < above then lower
  else if above < below then upper
  else if lower.digits % 2 = 0 then lower
  else upper

/-- Try grids of more and more digits; `fuel` bounds the number of grids. -/
def shortestFrom (x : Binary64) (num den : Nat) : Nat → Int → Decimal
  | 0, exponent => (neighbours num den exponent).1
  | fuel + 1, exponent =>
    let (lower, upper) := neighbours num den exponent
    match decide (lower.nearest = x), decide (upper.nearest = x) with
    | true, true => nearer num den lower upper
    | true, false => lower
    | false, true => upper
    | false, false => shortestFrom x num den fuel (exponent - 1)

/-- The shortest decimal form of the magnitude of a finite number other than zero. -/
def shortest (x : Binary64) : Decimal :=
  let (num, den) := x.fraction
  let magnitude : Binary64 := if x.negative then x.negate else x
  (shortestFrom magnitude num den 17 (decimalExponent num den)).reduce 400

end Provenance.Binary64

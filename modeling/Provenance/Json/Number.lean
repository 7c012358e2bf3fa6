import Provenance.Binary64.Shortest
import Provenance.Json.Numeral

/-!
# JSON numbers

A number is an integer of 64 bits, signed or not, or a binary floating point number. A
numeral that is no such integer denotes the floating point number obtained by scaling its
leading digits, as many as fit 64 bits, by a power of ten. Digits and power are rounded to
numbers of the format first, so that the result may differ from the nearest one in its last
place. A number beyond the range of the format is refused.
-/

namespace Provenance.Json

open Provenance.Text

/-- A number of a JSON document. -/
inductive Number
  | integer (n : Int)
  | float (x : Binary64)
  deriving DecidableEq, Repr

/-- The leading digits of a numeral as a number of 64 bits and the power of ten it lacks. -/
structure Scientific where
  significand : Nat
  exponent : Int
  deriving DecidableEq, Repr

namespace Scientific

/-- The greatest significand. -/
def limit : Nat := 2 ^ 64 - 1

/-- Take whole digits while they fit; every digit left out raises the exponent. -/
def takeWhole : Scientific → List Char → Scientific
  | s, [] => s
  | s, c :: cs =>
    let next := s.significand * 10 + (digit? c).getD 0
    if limit < next then ⟨s.significand, s.exponent + (c :: cs).length⟩
    else takeWhole ⟨next, s.exponent⟩ cs

/-- Take digits of the fraction while they fit; digits left out do not count. -/
def takeFraction : Scientific → List Char → Scientific
  | s, [] => s
  | s, c :: cs =>
    let next := s.significand * 10 + (digit? c).getD 0
    if limit < next then s else takeFraction ⟨next, s.exponent - 1⟩ cs

/-- The digits of a numeral, with its exponent applied. -/
def ofNumeral (n : Numeral) : Scientific :=
  let digits := takeFraction (takeWhole ⟨0, 0⟩ n.whole) (n.fraction.getD [])
  match n.exponent with
  | none => digits
  | some (negative, ds) =>
    let e : Int := ds.foldl (fun v c => v * 10 + (digit? c).getD 0) 0
    ⟨digits.significand, if negative then digits.exponent - e else digits.exponent + e⟩

/-- A power of ten, rounded to nearest. -/
def powerOfTen (k : Nat) : Binary64 := .ofNat (10 ^ k)

/-- Divide by powers of ten of at most 308 until the exponent is used up or zero is reached. -/
def lower : Nat → Binary64 → Nat → Binary64
  | 0, x, _ => x
  | fuel + 1, x, k =>
    if x.isZero then x
    else if k ≤ 308 then x.dividedBy (powerOfTen k)
    else lower fuel (x.dividedBy (powerOfTen 308)) (k - 308)

/-- The magnitude, unless it is beyond the range of the format. -/
def magnitude? (s : Scientific) : Option Binary64 :=
  let x := Binary64.ofNat s.significand
  if 0 ≤ s.exponent then
    if s.significand = 0 then some .zero
    else if 308 < s.exponent then none
    else
      let y := x.times (powerOfTen s.exponent.toNat)
      if y.isFinite then some y else none
  else
    some (lower 4 x (-s.exponent).toNat)

end Scientific

namespace Numeral

/-- The floating point number that a numeral denotes, unless it is out of range. -/
def float? (n : Numeral) : Option Binary64 :=
  (Scientific.ofNumeral n).magnitude?.map fun x => if n.negative then x.negate else x

/-- The number that a numeral denotes, unless it is out of range. -/
def number? (n : Numeral) : Option Number :=
  match n.integer? with
  | some i =>
    if -(2 ^ 63) ≤ i ∧ i < 2 ^ 64 then some (.integer i) else n.float?.map .float
  | none => n.float?.map .float

end Numeral

namespace Number

/-- The numeral of a positive decimal fraction. Up to sixteen whole digits and four zeros after
the point are written out; other magnitudes have an exponent. -/
def numeralOf (negative : Bool) (d : Binary64.Decimal) : Numeral :=
  let digits := decimal d.digits
  let point : Int := digits.length + d.exponent
  if 0 ≤ d.exponent ∧ point ≤ 16 then
    ⟨negative, digits ++ List.replicate d.exponent.toNat '0', some ['0'], none⟩
  else if 0 < point ∧ point ≤ 16 then
    ⟨negative, digits.take point.toNat, some (digits.drop point.toNat), none⟩
  else if -5 < point ∧ point ≤ 0 then
    ⟨negative, ['0'], some (List.replicate (-point).toNat '0' ++ digits), none⟩
  else
    let exponent := (decide (point - 1 < 0), decimal (point - 1).natAbs)
    match digits with
    | [] => ⟨negative, ['0'], none, none⟩
    | [c] => ⟨negative, [c], none, some exponent⟩
    | c :: cs => ⟨negative, [c], some cs, some exponent⟩

/-- The numeral that a number is written as; a number that is not finite has none. -/
def numeral? : Number → Option Numeral
  | .integer n => some (.ofInt n)
  | .float x =>
    if !x.isFinite then none
    else if x.isZero then some ⟨x.negative, ['0'], some ['0'], none⟩
    else some (numeralOf x.negative x.shortest)

/-- The number as a floating point number. -/
def toBinary64 : Number → Binary64
  | .integer n => .ofInt n
  | .float x => x

end Number

end Provenance.Json

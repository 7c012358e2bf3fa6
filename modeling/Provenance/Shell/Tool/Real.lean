import Provenance.Binary64
import Provenance.Shell.Arithmetic

/-!
# Real numbers in text

Numbers with a fraction or an exponent as they are read from arguments and written with a
number of digits. A number that has been read is rounded to the precision of a register, and
from there on everything is exact: digits are those of the nearest decimal fraction, where a tie
goes to the even digit.
-/

namespace Provenance.Shell

inductive Magnitude
  | ratio (num den : Nat)
  | infinite
  | undefined
  deriving DecidableEq, Repr

structure Real where
  negative : Bool
  magnitude : Magnitude
  deriving DecidableEq, Repr

namespace Real

def zero : Real := ⟨false, .ratio 0 1⟩

/-- The text begins with a word in letters of any case. -/
def takeWord? (word : String) (s : Octets) : Option Octets :=
  if (s.take word.length).map Char.toLower = word.toList then some (s.drop word.length) else none

/-- Scale a natural number by a power of a base. -/
def scaled (base n : Nat) (exponent : Int) : Magnitude :=
  if 0 ≤ exponent then .ratio (n * base ^ exponent.toNat) 1
  else .ratio n (base ^ (-exponent).toNat)

/-- Read the exponent of a number behind one of the given marks, if it is complete. -/
def takeExponent (marks : List Char) (s : Octets) : Int × Octets :=
  match s with
  | c :: rest =>
    if !marks.contains c then (0, s)
    else
      let (negative, digits) := match rest with
        | '-' :: ds => (true, ds)
        | '+' :: ds => (false, ds)
        | ds => (false, ds)
      match digits.span Char.isDigit with
      | ([], _) => (0, s)
      | (ds, after) =>
        let n : Int := min (Integer.valueOf 10 ds) 100000
        (if negative then -n else n, after)
  | [] => (0, s)

/-- Read a magnitude in a base, with a point and an exponent; an exponent counts in powers of
`step`. -/
def takeDigits? (base step width : Nat) (marks : List Char) (s : Octets) :
    Option (Magnitude × Octets) :=
  let isDigit (c : Char) : Bool := (Integer.digit? base c).isSome
  let (whole, rest) := s.span isDigit
  let (fraction, rest) := match rest with
    | '.' :: more =>
      let (f, after) := more.span isDigit
      if whole = [] ∧ f = [] then ([], rest) else (f, after)
    | rest => ([], rest)
  if whole = [] ∧ fraction = [] then none
  else
    let (exponent, rest) := takeExponent marks rest
    some (scaled step (Integer.valueOf base (whole ++ fraction))
      (exponent - width * fraction.length), rest)

/-- Read a number as far as the text is one. -/
def take? (s : Octets) : Option (Real × Octets) :=
  let (negative, rest) := match s.dropWhile Integer.isSpace with
    | '-' :: rest => (true, rest)
    | '+' :: rest => (false, rest)
    | rest => (false, rest)
  match takeWord? "infinity" rest, takeWord? "inf" rest, takeWord? "nan" rest with
  | some rest, _, _ => some (⟨negative, .infinite⟩, rest)
  | none, some rest, _ => some (⟨negative, .infinite⟩, rest)
  | none, none, some rest => some (⟨negative, .undefined⟩, rest)
  | none, none, none =>
    let hex := match rest with
      | '0' :: x :: digits =>
        if x = 'x' ∨ x = 'X' then takeDigits? 16 2 4 ['p', 'P'] digits else none
      | _ => none
    let number := match hex with
      | some r => some r
      | none => takeDigits? 10 10 1 ['e', 'E'] rest
    number.map fun (m, rest) => (⟨negative, m⟩, rest)

/-- The least power of two that a positive quotient is below, for exponents of any sign. -/
def bitLength (num den : Nat) : Int :=
  let guess : Int := (num.log2 : Int) - den.log2
  let isBelow := if 0 ≤ guess then decide (num < den * 2 ^ guess.toNat)
    else decide (num * 2 ^ (-guess).toNat < den)
  if isBelow then guess else guess + 1

/-- The formats of registers: the number of binary digits, the number of them from which on a
number is infinite, and the number of places behind which nothing is kept. -/
structure Register where
  bits : Nat
  top : Nat
  places : Nat

/-- The number rounded to what a register holds. -/
def roundTo (r : Register) (x : Real) : Real :=
  match x.magnitude with
  | .ratio num den =>
    if num = 0 then ⟨x.negative, .ratio 0 1⟩
    else
      let shift : Int := min (r.bits - bitLength num den) r.places
      let m := if 0 ≤ shift then Binary64.roundEven (num * 2 ^ shift.toNat) den
        else Binary64.roundEven num (den * 2 ^ (-shift).toNat)
      let magnitude := scaled 2 m (-shift)
      match magnitude with
      | .ratio n d =>
        ⟨x.negative, if n ≠ 0 ∧ (r.top : Int) < bitLength n d then .infinite else .ratio n d⟩
      | m => ⟨x.negative, m⟩
  | _ => x

/-- The number cannot be told from others once a register holds it, since it is too large or too
small. -/
def isOutOf (r : Register) (x : Real) : Bool :=
  match x.magnitude, (x.roundTo r).magnitude with
  | .ratio _ _, .infinite => true
  | .ratio a b, .ratio n d =>
    a * d ≠ n * b && decide ((r.places : Int) < r.bits - bitLength a b)
  | _, _ => false

def padZeros (width : Nat) (digits : Octets) : Octets :=
  List.replicate (width - digits.length) '0' ++ digits

/-- Put a point into digits so that so many follow it. -/
def pointed (places : Nat) (keepPoint : Bool) (digits : Octets) : Octets :=
  let digits := padZeros (places + 1) digits
  let whole := digits.take (digits.length - places)
  let fraction := digits.drop (digits.length - places)
  if places = 0 ∧ !keepPoint then whole else whole ++ '.' :: fraction

/-- A quotient with a number of places behind the point. -/
def fixed (places : Nat) (keepPoint : Bool) (num den : Nat) : Octets :=
  pointed places keepPoint (Text.decimal (Binary64.roundEven (num * 10 ^ places) den))

/-- The exponent of the first decimal digit of a positive quotient. -/
def decimalExponent (num den : Nat) : Int :=
  let guess : Int := ((Text.decimal num).length : Int) - (Text.decimal den).length
  let isBelow := if 0 ≤ guess then decide (num < den * 10 ^ guess.toNat)
    else decide (num * 10 ^ (-guess).toNat < den)
  if isBelow then guess - 1 else guess

/-- The digits of a quotient, one before the point and so many behind it, and the exponent. -/
def leading (places : Nat) (num den : Nat) : Octets × Int :=
  if num = 0 then (List.replicate (places + 1) '0', 0)
  else
    let e := decimalExponent num den
    let shift : Int := places - e
    let q := if 0 ≤ shift then Binary64.roundEven (num * 10 ^ shift.toNat) den
      else Binary64.roundEven num (den * 10 ^ (-shift).toNat)
    let digits := Text.decimal q
    if digits.length = places + 2 then (digits.dropLast, e + 1) else (digits, e)

/-- An exponent as it is written: a sign and at least two digits. -/
def exponentText (mark : Char) (width : Nat) (e : Int) : Octets :=
  mark :: (if e < 0 then '-' else '+') :: padZeros width (Text.decimal e.natAbs)

/-- A quotient with an exponent. -/
def scientific (places : Nat) (keepPoint : Bool) (num den : Nat) : Octets :=
  let (digits, e) := leading places num den
  pointed places keepPoint digits ++ exponentText 'e' 2 e

/-- Leave out zeros behind the point at the end, and the point if nothing follows it. -/
def dropZeros (s : Octets) : Octets :=
  if s.contains '.' then
    Octets.trimEnd (· = '.') (Octets.trimEnd (· = '0') s)
  else s

/-- A quotient with so many digits that count, with or without an exponent. -/
def general (digits : Nat) (keepZeros : Bool) (num den : Nat) : Octets :=
  let p := max digits 1
  let (ds, e) := leading (p - 1) num den
  if -4 ≤ e ∧ e < p then
    let text := fixed ((p : Int) - 1 - e).toNat keepZeros num den
    if keepZeros then text else dropZeros text
  else
    let text := pointed (p - 1) keepZeros ds
    (if keepZeros then text else dropZeros text) ++ exponentText 'e' 2 e

def hexDigit (n : Nat) : Char :=
  if n < 10 then Char.ofNat ('0'.toNat + n) else Char.ofNat ('a'.toNat + n - 10)

/-- A number of base sixteen with a given number of digits. -/
def hexDigits : Nat → Nat → Octets
  | 0, _ => []
  | width + 1, n => hexDigits width (n / 16) ++ [hexDigit (n % 16)]

/-- A quotient in base sixteen, with so many bits before the point and the register's precision
of `bits`. -/
def hexadecimal (bits lead : Nat) (places : Option Nat) (keepPoint : Bool) (num den : Nat) :
    Octets :=
  let available := (bits - lead + 3) / 4
  if num = 0 then
    "0x".toList ++ pointed (places.getD 0) keepPoint (List.replicate (places.getD 0 + 1) '0') ++
      "p+0".toList
  else
    let e := bitLength num den - lead
    let shift : Int := 4 * (places.getD available : Nat) - e
    let q := if 0 ≤ shift then Binary64.roundEven (num * 2 ^ shift.toNat) den
      else Binary64.roundEven num (den * 2 ^ (-shift).toNat)
    let isFull := 16 ^ (places.getD available + 1) ≤ q
    let (q, e) := if isFull then (q / 16, e + 4) else (q, e)
    let text := pointed (places.getD available) keepPoint
      (hexDigits (places.getD available + 1) q)
    let short := dropZeros text
    let text := if places.isSome then text
      else if keepPoint ∧ !short.contains '.' then short ++ ['.']
      else short
    "0x".toList ++ text ++ exponentText 'p' 1 e

end Real

end Provenance.Shell

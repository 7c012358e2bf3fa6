import Provenance.Json.Token
import Provenance.Toml.Value

/-!
# TOML numbers, booleans and dates

A scalar is a word without blanks, except that a date and a time may be separated by one
blank. Underscores may stand between digits, and a decimal integer has no leading zeros.
-/

namespace Provenance.Toml.Scalar

open Provenance.Text

/-- Digits with single underscores between them, without the underscores; at least one. -/
def digits? (isDigit : Char → Bool) : List Char → Option (List Char)
  | [] => none
  | [c] => if isDigit c then some [c] else none
  | c :: '_' :: rest => if isDigit c then (digits? isDigit rest).map (c :: ·) else none
  | c :: rest => if isDigit c then (digits? isDigit rest).map (c :: ·) else none

/-- Value of digits in a base. -/
def valueIn (base : Nat) (digits : List Char) : Nat :=
  digits.foldl (fun v c => v * base + (Json.Token.hexValue? c).getD 0) 0

/-- Decimal digits without a leading zero. -/
def wholeDigits? (cs : List Char) : Option (List Char) :=
  match digits? Char.isDigit cs with
  | some ('0' :: _ :: _) => none
  | ds => ds

/-- Split a sign from what follows. -/
def sign : List Char → Bool × List Char
  | '-' :: rest => (true, rest)
  | '+' :: rest => (false, rest)
  | cs => (false, cs)

/-- An integer that fits a signed register of 64 bits. -/
def register? (n : Int) : Option Int := if -(2 ^ 63) ≤ n ∧ n < 2 ^ 63 then some n else none

/-- An integer in decimal, or without sign in base sixteen, eight or two. -/
def integer? (cs : List Char) : Option Int :=
  let based (base : Nat) (isDigit : Char → Bool) (rest : List Char) : Option Int :=
    (digits? isDigit rest).bind fun ds => register? (valueIn base ds)
  match cs with
  | '0' :: 'x' :: rest => based 16 (fun c => (Json.Token.hexValue? c).isSome) rest
  | '0' :: 'o' :: rest => based 8 (fun c => '0' ≤ c && c ≤ '7') rest
  | '0' :: 'b' :: rest => based 2 (fun c => c = '0' || c = '1') rest
  | cs =>
    let (negative, rest) := sign cs
    (wholeDigits? rest).bind fun ds =>
      let n : Int := valueIn 10 ds
      register? (if negative then -n else n)

/-- The number nearest to digits scaled by a power of ten. -/
def scaled (negative : Bool) (digits : List Char) (exponent : Int) : Binary64 :=
  let n := valueIn 10 digits
  let top : Int := (digits.dropWhile (· = '0')).length + exponent
  if n = 0 ∨ top < -400 then .ofRatio negative 0 1
  else if 400 < top then .ofRatio negative (2 ^ 1100) 1
  else if 0 ≤ exponent then .ofRatio negative (n * 10 ^ exponent.toNat) 1
  else .ofRatio negative n (10 ^ (-exponent).toNat)

def infinity (negative : Bool) : Binary64 := .signed negative (2047 * 2 ^ 52)

/-- The character begins an exponent. -/
def isExponentMark (c : Char) : Bool := c = 'e' || c = 'E'

/-- The value of the digits of an exponent, of which those that follow a number of at least
2¹⁶ are not counted. -/
def exponentValue (digits : List Char) : Nat :=
  digits.foldl (fun v c => if v < 2 ^ 16 then v * 10 + (digit? c).getD 0 else v) 0

/-- The value of an exponent after its mark. -/
def exponent? (cs : List Char) : Option Int :=
  let (negative, rest) := sign cs
  (digits? Char.isDigit rest).map fun ds =>
    let n : Int := exponentValue ds
    if negative then -n else n

/-- A floating point number. A positive number too large for the format is refused. -/
def float? (cs : List Char) : Option Binary64 :=
  let (negative, rest) := sign cs
  if rest = ['i', 'n', 'f'] then some (infinity negative)
  else if rest = ['n', 'a', 'n'] then some ⟨0x7ff8000000000000⟩
  else do
    let (mantissa, power) := rest.span (!isExponentMark ·)
    let (wholeText, fractionText) := mantissa.span (· ≠ '.')
    let whole ← wholeDigits? wholeText
    let fraction ← match fractionText with
      | [] => if power = [] then none else some []
      | _ :: ds => digits? Char.isDigit ds
    let exponent ← match power with
      | [] => some 0
      | _ :: es => exponent? es
    let x := scaled negative (whole ++ fraction) (exponent - fraction.length)
    if x = infinity false then none else some x

/-- Value of exactly two digits, if it is at most `limit`. -/
def twoDigits? (limit : Nat) : List Char → Option (Nat × List Char)
  | a :: b :: rest => do
    let x ← digit? a
    let y ← digit? b
    if x * 10 + y ≤ limit then some (x * 10 + y, rest) else none
  | _ => none

/-- Number of days of a month. -/
def daysIn (year month : Nat) : Nat :=
  if month = 2 then
    if year % 4 = 0 ∧ (year % 100 ≠ 0 ∨ year % 400 = 0) then 29 else 28
  else if month = 4 ∨ month = 6 ∨ month = 9 ∨ month = 11 then 30
  else 31

/-- Read a date, in its canonical form. -/
def date? (cs : List Char) : Option (List Char × List Char) := do
  let (y1, rest) ← twoDigits? 99 cs
  let (y2, rest) ← twoDigits? 99 rest
  let '-' :: rest := rest | none
  let (month, rest) ← twoDigits? 12 rest
  let '-' :: rest := rest | none
  let (day, rest) ← twoDigits? 31 rest
  if month = 0 ∨ day = 0 ∨ daysIn (y1 * 100 + y2) month < day then none
  else some (cs.take 10, rest)

/-- A fraction of a second in its canonical form: nine digits, without zeros at the end. -/
def fraction (digits : List Char) : List Char :=
  match ((digits.take 9).reverse.dropWhile (· = '0')).reverse with
  | [] => []
  | ds => '.' :: ds

/-- Read a time, in its canonical form. -/
def time? (cs : List Char) : Option (List Char × List Char) := do
  let (_, rest) ← twoDigits? 23 cs
  let ':' :: rest := rest | none
  let (_, rest) ← twoDigits? 59 rest
  let ':' :: rest := rest | none
  let (_, rest) ← twoDigits? 60 rest
  match rest with
  | '.' :: more =>
    let (digits, rest) := more.span Char.isDigit
    if digits = [] then none else some (cs.take 8 ++ fraction digits, rest)
  | _ => some (cs.take 8, rest)

/-- Read a whole text as an offset from universal time, in its canonical form. -/
def offset? : List Char → Option (List Char)
  | [] => some []
  | ['Z'] => some ['Z']
  | ['z'] => some ['Z']
  | s :: rest => do
    let (hours, more) ← twoDigits? 23 rest
    let ':' :: more := more | none
    let (minutes, more) ← twoDigits? 59 more
    if more ≠ [] then none
    else if s = '+' then some ('+' :: rest)
    else if s = '-' then some ((if hours = 0 ∧ minutes = 0 then '+' else '-') :: rest)
    else none

/-- A date, a time or both, in canonical form. -/
def datetime? (cs : List Char) : Option String :=
  match date? cs with
  | some (date, []) => some (String.ofList date)
  | some (date, d :: rest) =>
    if d = 'T' ∨ d = 't' ∨ d = ' ' then do
      let (time, rest) ← time? rest
      let offset ← offset? rest
      return String.ofList (date ++ 'T' :: (time ++ offset))
    else
      none
  | none =>
    match time? cs with
    | some (time, []) => some (String.ofList time)
    | _ => none

def isScalarChar (c : Char) : Bool :=
  c.isAlphanum || c = '_' || c = '+' || c = '-' || c = '.' || c = ':'

def ofChars? (cs : List Char) : Option Value :=
  if cs = ['t', 'r', 'u', 'e'] then some (.bool true)
  else if cs = ['f', 'a', 'l', 's', 'e'] then some (.bool false)
  else
    (datetime? cs).map .datetime <|> (integer? cs).map .integer <|> (float? cs).map .float

/-- Read a scalar. A date takes a following time with it. -/
def read (cs : List Char) : Option (Value × List Char) :=
  let (word, rest) := cs.span isScalarChar
  match date? word, rest with
  | some (_, []), ' ' :: c :: more =>
    if c.isDigit then
      let (time, rest) := (c :: more).span isScalarChar
      (ofChars? (word ++ ' ' :: time)).map (·, rest)
    else
      (ofChars? word).map (·, rest)
  | _, _ => (ofChars? word).map (·, rest)

end Provenance.Toml.Scalar

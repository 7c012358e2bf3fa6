import Provenance.Shell.Tool.Call
import Provenance.Shell.Tool.Escape
import Provenance.Shell.Tool.Real

/-!
# Formatted output

Arguments are written as a format says, which is used again and again until no argument is left.
The command of the shell and the program of the same name differ in what they understand and in
how they complain.
-/

namespace Provenance.Shell.Printf

/-- Which of the two is meant. -/
inductive Dialect
  | command
  | program
  deriving DecidableEq

/-- The register in which real numbers are held. -/
def Dialect.register : Dialect → Real.Register
  | .command => ⟨53, 1024, 1074⟩
  | .program => ⟨64, 16384, 16445⟩

/-- What has been written, and what is left to be written. -/
structure State where
  out : Octets
  complaints : List Octets
  args : List Octets
  failed : Bool

/-- Why nothing more is written. -/
inductive Stop
  | done
  | broken (status : Nat) (complaint : Octets)

/-- Writing, in which `done` ends everything. -/
abbrev Writing := ExceptT Stop (StateM State)

def put (s : Octets) : Writing Unit := modify fun st => { st with out := st.out ++ s }

def warn (failing : Bool) (text : Octets) : Writing Unit :=
  modify fun st =>
    { st with complaints := st.complaints ++ [text], failed := st.failed || failing }

/-- The next argument, if there is one. -/
def next? : Writing (Option Octets) := do
  let st ← get
  match st.args with
  | a :: rest =>
    set { st with args := rest }
    return some a
  | [] => return none

/-- The complaint about an argument that is not a number as a whole. -/
def incomplete (d : Dialect) (text rest : Octets) : Octets :=
  match d with
  | .command =>
    text ++
      (if rest = text then ": expected numeric value" else ": not completely converted").toList
  | .program =>
    Call.curly text ++
      (if rest = text then ": expected a numeric value"
      else ": value not completely converted").toList

/-- The complaint about a number that is too large. -/
def tooLarge (d : Dialect) (text : Octets) : Octets :=
  (match d with
    | .command => text
    | .program => Call.curly text) ++ ": Numerical result out of range".toList

/-- The number of the first character of a text. -/
def characterValue (d : Dialect) (s : Octets) : Nat × Octets :=
  match d, s with
  | _, [] => (0, [])
  | .command, c :: _ => (c.toNat, [])
  | .program, c :: rest =>
    let width := if c < '\x80' then 1 else if c < '\xe0' then 2 else if c < '\xf0' then 3 else 4
    match Text.Utf8.decode? (Octets.toBytes (s.take width)) with
    | some [d] => (d.toNat, s.drop width)
    | _ => (c.toNat, rest)

/-- The value of an argument that begins with a quote, if it does. -/
def quotedValue? (d : Dialect) (text : Octets) : Writing (Option Nat) := do
  match d, text with
  | .command, q :: rest =>
    return if q = '"' ∨ q = '\x27' then some (characterValue d rest).1 else none
  | .program, q :: c :: rest =>
    if q = '"' ∨ q = '\x27' then
      let (n, after) := characterValue d (c :: rest)
      if after ≠ [] then
        warn false ("warning: ".toList ++ after ++
          ": character(s) following character constant have been ignored".toList)
      return some n
    else return none
  | _, _ => return none

/-- The value of the next argument as an integer. -/
def nextInteger (d : Dialect) (isSigned : Bool) : Writing Int := do
  match ← next? with
  | none => return 0
  | some text =>
    match ← quotedValue? d text with
    | some n => return n
    | none =>
      let (negative, unsigned) := match text.dropWhile Integer.isSpace with
        | '-' :: rest => (true, rest)
        | '+' :: rest => (false, rest)
        | rest => (false, rest)
      match Integer.takeUnsigned false unsigned with
      | none =>
        if text ≠ [] then warn true (incomplete d text text)
        return 0
      | some (n, rest) =>
        let value : Int := if negative then -n else n
        let least : Int := if isSigned then Integer.least else 1 - 2 ^ 64
        let greatest : Int := if isSigned then Integer.greatest else 2 ^ 64 - 1
        let isTooLarge := value < least ∨ greatest < value
        if rest ≠ [] ∧ (d = .command ∨ !isTooLarge) then warn true (incomplete d text rest)
        else if isTooLarge then warn true (tooLarge d text)
        if isTooLarge then
          return if isSigned ∧ negative then Integer.least else greatest
        else return if isSigned then value else value % 2 ^ 64

/-- The value of the next argument as a real number. -/
def nextReal (d : Dialect) : Writing Real := do
  match ← next? with
  | none => return .zero
  | some text =>
    match ← quotedValue? d text with
    | some n => return ⟨false, .ratio n 1⟩
    | none =>
      match Real.take? text with
      | none =>
        if text ≠ [] then warn true (incomplete d text text)
        return .zero
      | some (x, rest) =>
        let register := d.register
        if x.isOutOf register then warn true (tooLarge d text)
        else if rest ≠ [] then warn true (incomplete d text rest)
        return x.roundTo register

/-- How a value is to be written. -/
structure Layout where
  flags : Octets
  width : Nat
  left : Bool
  precision : Option Nat

namespace Layout

def has (l : Layout) (flag : Char) : Bool := l.flags.contains flag

def pad (l : Layout) (s : Octets) : Octets :=
  let fill := List.replicate (l.width - s.length) ' '
  if l.left then s ++ fill else fill ++ s

/-- Fill up with blanks, or with zeros behind the sign. -/
def padNumber (l : Layout) (zeros : Bool) (sign body : Octets) : Octets :=
  if zeros ∧ l.has '0' ∧ !l.left then
    sign ++ List.replicate (l.width - sign.length - body.length) '0' ++ body
  else l.pad (sign ++ body)

def sign (l : Layout) (negative : Bool) : Octets :=
  if negative then ['-'] else if l.has '+' then ['+'] else if l.has ' ' then [' '] else []

def integer (l : Layout) (n : Int) : Octets :=
  let digits := if n = 0 ∧ l.precision = some 0 then [] else Text.decimal n.natAbs
  l.padNumber l.precision.isNone (l.sign (n < 0))
    (Real.padZeros (l.precision.getD 0) digits)

/-- Digits of a natural number in a base. -/
def digitsIn (base : Nat) (n : Nat) : Octets :=
  match base with
  | 10 => Text.decimal n
  | base => Nat.toDigits base n

def unsigned (l : Layout) (conversion : Char) (n : Nat) : Octets :=
  let base := match conversion with
    | 'o' => 8
    | 'x' | 'X' => 16
    | _ => 10
  let digits := if n = 0 ∧ l.precision = some 0 then [] else digitsIn base n
  let digits := Real.padZeros (l.precision.getD 0) digits
  let digits := if base = 8 ∧ l.has '#' ∧ digits.head? ≠ some '0' then '0' :: digits else digits
  let mark := if base = 16 ∧ l.has '#' ∧ n ≠ 0 then ['0', 'x'] else []
  let text := l.padNumber l.precision.isNone mark digits
  if conversion = 'X' then text.map Char.toUpper else text

def real (l : Layout) (d : Dialect) (conversion : Char) (x : Real) : Octets :=
  let sign := l.sign x.negative
  let text := match x.magnitude with
    | .infinite => l.pad (sign ++ "inf".toList)
    | .undefined => l.pad (sign ++ "nan".toList)
    | .ratio num den =>
      let places := l.precision.getD 6
      match conversion.toLower with
      | 'f' => l.padNumber true sign (Real.fixed places (l.has '#') num den)
      | 'e' => l.padNumber true sign (Real.scientific places (l.has '#') num den)
      | 'g' => l.padNumber true sign (Real.general places (l.has '#') num den)
      | _ =>
        let body := match d with
          | .command => Real.hexadecimal 53 1 l.precision (l.has '#') num den
          | .program => Real.hexadecimal 64 4 l.precision (l.has '#') num den
        l.padNumber true (sign ++ body.take 2) (body.drop 2)
  if conversion.isUpper then text.map Char.toUpper else text

def text (l : Layout) (s : Octets) : Octets := l.pad (l.precision.elim s s.take)

end Layout

/-- Largest width and precision that a directive may have. -/
def numberLimit : Int := 2 ^ 31 - 1

/-- Read the width or the precision of a directive, which may be the next argument. -/
def readNumber (d : Dialect) (isWidth : Bool) (s : Octets) : Writing (Option Int × Octets) := do
  match s with
  | '*' :: rest =>
    let given := (← get).args.head?.getD []
    let n ← nextInteger d true
    match d with
    | .command => return (some (Int.bmod n (2 ^ 32)), rest)
    | .program =>
      if numberLimit < n ∨ (isWidth ∧ n < -numberLimit - 1) then
        throw (.broken 1
          ((if isWidth then "invalid field width: " else "invalid precision: ").toList ++
            Call.curly given))
      else return (some n, rest)
  | s =>
    match s.span Char.isDigit with
    | ([], rest) => return (none, rest)
    | (ds, rest) => return (some (Integer.valueOf 10 ds), rest)

/-- The complaint about a directive that is not understood. -/
def invalid (d : Dialect) (directive : Octets) : Stop :=
  match d with
  | .command => .broken 2 (directive ++ ": invalid directive".toList)
  | .program => .broken 1 (directive ++ ": invalid conversion specification".toList)

/-- Letters that the program refuses because of flags or a precision. -/
def refused (flags : Octets) (hasPrecision : Bool) : Octets :=
  (if flags.contains '#' then "cdisu".toList else []) ++
    (if flags.contains '0' then "cs".toList else []) ++
    (if flags.contains '\x27' then "aAceEosxX".toList else []) ++
    (if hasPrecision then ['c'] else [])

/-- Write the value of a directive. -/
def writeValue (d : Dialect) (l : Layout) (conversion : Char) : Writing Unit := do
  match conversion with
  | 's' => put (l.text ((← next?).getD []))
  | 'c' => put (l.pad (((← next?).getD []).take 1 |> fun s => if s = [] then ['\x00'] else s))
  | 'd' | 'i' => put (l.integer (← nextInteger d true))
  | 'o' | 'u' | 'x' | 'X' => put (l.unsigned conversion (← nextInteger d false).toNat)
  | 'q' => put ((← next?).elim [] (Call.quotedForShell ""))
  | 'b' =>
    let arg := (← next?).getD []
    let (s, finish) := Escape.replaceAll (Escape.inArgument (d = .program)) (arg.length + 1) arg
    put (l.text s)
    match finish with
    | .whole => return
    | .stopped => throw .done
    | .invalid complaint => throw (.broken 1 complaint.toList)
  | _ => put (l.real d conversion (← nextReal d))

/-- Letters of directives. -/
def conversions : Dialect → Octets
  | .command => "bcsdiouxXaAeEfFgG".toList
  | .program => "csdiouxXaAeEfFgG".toList

/-- Write a directive, of which the text behind the percent sign is given; what follows it. -/
def directive (d : Dialect) (s : Octets) : Writing Octets := do
  match d, s with
  | _, '%' :: rest =>
    put ['%']
    return rest
  | .program, 'b' :: rest =>
    writeValue d ⟨[], 0, false, none⟩ 'b'
    return rest
  | .program, 'q' :: rest =>
    writeValue d ⟨[], 0, false, none⟩ 'q'
    return rest
  | d, s =>
    let known := if d = .program then "#-+ 0'I".toList else "#-+ 0".toList
    let (flags, rest) := s.span known.contains
    let (width, rest) ← readNumber d true rest
    let (hasPrecision, precision, rest) ← match rest with
      | '.' :: rest => do
        let (n, rest) ← readNumber d false rest
        pure (true, some (n.getD 0), rest)
      | rest => pure (false, none, rest)
    let rest := if d = .program then rest.dropWhile "lLhjtz".toList.contains else rest
    match rest with
    | [] =>
      match d with
      | .command => throw (.broken 2 "missing format character".toList)
      | .program => throw (invalid d ('%' :: s))
    | c :: after =>
      let isRefused := d = .program && (refused flags hasPrecision).contains c
      if !(conversions d).contains c ∨ isRefused then
        throw (invalid d ('%' :: s.take (s.length - after.length)))
      else
        let layout : Layout := ⟨flags, (width.getD 0).natAbs,
          flags.contains '-' || decide (width.getD 0 < 0),
          precision.bind fun p => if p < 0 then none else some p.toNat⟩
        if numberLimit < width.getD 0 ∨ numberLimit < precision.getD 0 then
          match d with
          | .command => throw (.broken 2 "xvsnprintf failed".toList)
          | .program =>
            let _ ← next?
            warn true "write error".toList
        else writeValue d layout c
        return after

def writeOnce (d : Dialect) : Nat → Octets → Writing Unit
  | 0, _ => return
  | _ + 1, [] => return
  | fuel + 1, '%' :: rest => do writeOnce d fuel (← directive d rest)
  | fuel + 1, '\\' :: rest => do
    match Escape.inFormat (d = .program) rest with
    | .bytes s rest =>
      put s
      writeOnce d fuel rest
    | .stop => throw .done
    | .invalid complaint => throw (.broken 1 complaint.toList)
  | fuel + 1, c :: rest => do
    let (plain, after) := (c :: rest).span fun c => c ≠ '%' && c ≠ '\\'
    put plain
    writeOnce d fuel after

/-- Write the format until no argument is left, or as long as it takes some. -/
def writeAll (d : Dialect) (format : Octets) : Nat → Writing Unit
  | 0 => return
  | fuel + 1 => do
    let before := (← get).args
    writeOnce d (format.length + 1) format
    let left := (← get).args
    match left with
    | [] => return
    | a :: _ =>
      if left.length < before.length then writeAll d format fuel
      else if d = .program then
        warn false ("warning: ignoring excess arguments, starting with ".toList ++ Call.curly a)

/-- What is written: the status, the output and the complaints. -/
def run (d : Dialect) (format : Octets) (args : List Octets) : Nat × Octets × List Octets :=
  let (r, st) := (writeAll d format (args.length + 1)).run ⟨[], [], args, false⟩
  let status := if st.failed then 1 else 0
  match r with
  | .ok _ => (status, st.out, st.complaints)
  | .error .done => (if d = .program then 0 else status, st.out, st.complaints)
  | .error (.broken status complaint) => (status, st.out, st.complaints ++ [complaint])

def program : Tool := fun c =>
  let args := match c.args with
    | ['-', '-'] :: rest => rest
    | args => args
  match args with
  | [] => c.refuseUsage 1 "missing operand".toList
  | format :: args =>
    if args = [] ∧ (format = "--version".toList ∨ format = "--help".toList) then
      c.report 0 ("printf".toList ++ ['\n'])
    else
      let (status, out, complaints) := run .program format args
      let complaints := complaints.map fun t => (true, c.complaint t)
      ⟨status, complaints ++ [(false, out)], c.input, c.folder⟩

end Provenance.Shell.Printf

import Provenance.Shell.Tool.Condition
import Provenance.Shell.Tool.Copying
import Provenance.Shell.Tool.Escape
import Provenance.Shell.Tool.Real
import Provenance.Shell.Tool.Regex

/-!
# Tools that work on their arguments

Tools that write what their arguments say or stand for, or that only have a status.
-/

namespace Provenance.Shell.Words

def quiet (status : Nat) : Tool := fun c => c.report status []

/-- Write a line that is always the same. -/
def constant (line : String) : Tool := fun c => c.report 0 (line.toList ++ ['\n'])

/-- Write the arguments; options at the front say whether escapes are replaced and whether a
newline follows. -/
def echo : Tool := fun c =>
  let isOption (a : Octets) : Bool :=
    match a with
    | '-' :: l :: ls => (l :: ls).all "neE".toList.contains
    | _ => false
  let options := c.args.takeWhile isOption
  let args := c.args.drop options.length
  let letters := options.flatMap (List.drop 1)
  let escapes := (letters.filter fun l => l = 'e' ∨ l = 'E').getLast? = some 'e'
  let text := Octets.joined [' '] args
  let (out, whole) := if escapes then
      let (out, finish) := Escape.replaceAll Escape.inEcho (text.length + 1) text
      (out, finish.isWhole)
    else (text, true)
  c.report 0 (if whole ∧ !letters.contains 'n' then out ++ ['\n'] else out)

/-- The status of a condition. -/
def test (inBrackets : Bool) : Tool := fun c =>
  if inBrackets ∧ c.args.getLast? ≠ some [']'] then c.refuse 2 "missing ‘]’".toList
  else
    let words := if inBrackets then c.args.dropLast else c.args
    match Condition.evaluate c (words.length + 1) words with
    | .ok b => c.report (if b then 0 else 1) []
    | .error text => c.refuse 2 text

/-! ## Paths -/

/-- The last component of a path. -/
def lastComponent (path : Octets) : Octets :=
  match Octets.trimEnd (· = '/') path with
  | [] => if path = [] then [] else ['/']
  | s => (s.reverse.takeWhile (· ≠ '/')).reverse

/-- A name without what it ends in, unless that is all of it. -/
def withoutSuffix (suffix name : Octets) : Octets :=
  if suffix ≠ [] ∧ suffix.isSuffixOf name ∧ name ≠ suffix then
    name.take (name.length - suffix.length)
  else name

/-- Write the last components of paths. -/
def basename : Tool := fun c =>
  c.withLeading "az" "s" [("multiple", 'a'), ("suffix", 's'), ("zero", 'z')] 1 fun o names =>
    match names with
    | [] => c.refuseUsage 1 "missing operand".toList
    | first :: rest =>
      if o.hasAny "as" then
        let suffix := (o.value? 's').getD []
        c.report 0 (names.flatMap fun n => withoutSuffix suffix (lastComponent n) ++ ['\n'])
      else
        match rest with
        | [] => c.report 0 (lastComponent first ++ ['\n'])
        | [suffix] => c.report 0 (withoutSuffix suffix (lastComponent first) ++ ['\n'])
        | _ :: extra :: _ => c.refuseUsage 1 ("extra operand ".toList ++ Call.curly extra)

/-- A path without its last component. -/
def parent (path : Octets) : Octets :=
  let s := Octets.trimEnd (· = '/') path
  if s = [] then if path = [] then ['.'] else ['/']
  else if !s.contains '/' then ['.']
  else
    match Octets.trimEnd (· = '/') (Octets.trimEnd (· ≠ '/') s) with
    | [] => ['/']
    | s => s

/-- Write paths without their last components. -/
def dirname : Tool := fun c =>
  c.withOptions "z" "" [("zero", 'z')] 1 fun _ names =>
    if names = [] then c.refuseUsage 1 "missing operand".toList
    else c.report 0 (names.flatMap fun n => parent n ++ ['\n'])

/-! ## The environment -/

/-- Write variables. -/
def printenv : Tool := fun c =>
  c.withLeading "0" "" [] 2 fun _ names =>
    if names = [] then
      c.report 0 (c.environment.flatMap fun (n, v) => n ++ '=' :: v ++ ['\n'])
    else
      let values := names.map fun n => c.environment.lookup n
      c.report (if values.all Option.isSome then 0 else 1)
        (values.flatMap fun v => v.elim [] (· ++ ['\n']))

/-- Write properties of the system. -/
def uname : Tool := fun c =>
  c.withOptions "asnrvmpio" "" [] 1 fun o _ =>
    let parts := [('s', "Linux"), ('n', "localhost"), ('r', "6.1.0"), ('v', "#1 SMP"),
      ('m', "x86_64"), ('o', "GNU/Linux")]
    let chosen := if o.given.isEmpty then [("Linux")]
      else (parts.filter fun (l, _) => o.has l ∨ o.has 'a').map Prod.snd
    c.report 0 ((" ".intercalate chosen).toList ++ ['\n'])

/-- Write the user, as a number or by name. -/
def userId : Tool := fun c =>
  c.withOptions "ugGnr" "" [] 1 fun o _ =>
    c.report 0 (if !o.hasAny "ugG" then "uid=0(root) gid=0(root) groups=0(root)\n".toList
      else if o.has 'n' then "root\n".toList else ['0', '\n'])

/-! ## Time -/

/-- Wait; each argument is a time with a unit. -/
def sleep : Tool := fun c =>
  let isTime (a : Octets) : Bool :=
    match Real.take? a with
    | some (x, rest) =>
      !x.negative && (rest = [] || ["s", "m", "h", "d"].contains (String.ofList rest))
    | none => false
  c.withOptions "" "" [] 1 fun _ times =>
    if times = [] then c.refuseUsage 1 "missing operand".toList
    else
      match times.filter (!isTime ·) with
      | [] => c.report 0 []
      | bad =>
        let lines := bad.map fun t => "invalid time interval ".toList ++ Call.curly t
        c.refuseUsage 1 (Octets.joined (['\n'] ++ c.name ++ ": ".toList) lines)

/-! ## Numbers -/

/-- A decimal number: its value times a power of ten, and the number of its places. -/
structure Decimal where
  value : Int
  places : Nat

def Decimal.read? (s : Octets) : Option Decimal :=
  let (negative, body) := match s with
    | '-' :: rest => (true, rest)
    | '+' :: rest => (false, rest)
    | rest => (false, rest)
  let (whole, rest) := body.span Char.isDigit
  let (part, rest) := match rest with
    | '.' :: rest => rest.span Char.isDigit
    | rest => ([], rest)
  if rest ≠ [] ∨ (whole = [] ∧ part = []) then none
  else
    let n : Int := Integer.valueOf 10 (whole ++ part)
    some ⟨if negative then -n else n, part.length⟩

/-- The value at a number of places. -/
def Decimal.scaled (d : Decimal) (places : Nat) : Int := d.value * 10 ^ (places - d.places)

/-- A value at a number of places as it is written. -/
def decimalText (places : Nat) (n : Int) : Octets :=
  let digits := (Text.decimal n.natAbs).leftpad (places + 1) '0'
  let whole := digits.take (digits.length - places)
  (if n < 0 then ['-'] else []) ++ whole ++
    (if places = 0 then [] else '.' :: digits.drop (digits.length - places))

/-- The numbers from one to another with a step, which is not zero. A sequence that is very long
counts as one without end. -/
def progression (step last first : Int) : List Int :=
  let count := (Int.fdiv (last - first) step + 1).toNat
  (List.range (min count Octets.endless)).map fun (i : Nat) => first + (i : Int) * step

/-- A number with zeros before it. -/
def padZeros (width : Nat) (s : Octets) : Octets :=
  match s with
  | '-' :: digits => '-' :: digits.leftpad (width - 1) '0'
  | digits => digits.leftpad width '0'

/-- Write a sequence of numbers. -/
def seq : Tool := fun c =>
  let isNumber (a : Octets) : Bool := (Decimal.read? a).isSome
  let rec options : Nat → List Octets → Except Octets (List Given × List Octets)
    | 0, args => .ok ([], args)
    | _ + 1, [] => .ok ([], [])
    | fuel + 1, arg :: rest =>
      if arg = ['-', '-'] then .ok ([], rest)
      else if isNumber arg ∨ arg.head? ≠ some '-' ∨ arg = ['-'] then .ok ([], arg :: rest)
      else
        match arg with
        | '-' :: '-' :: _ =>
          match Given.read false ['w'] ['s', 'f'] [("equal-width", 'w'), ("separator", 's'),
              ("format", 'f')] 1 [arg] with
          | .ok (g, _) => (options fuel rest).map fun (more, os) => (g ++ more, os)
          | .error e => .error e
        | _ =>
          match Given.readLetters ['w'] ['s', 'f'] arg.tail rest with
          | .ok (g, rest) => (options fuel rest).map fun (more, os) => (g ++ more, os)
          | .error e => .error e
  match options (c.args.length + 1) c.args with
  | .error e => c.refuseUsage 1 e
  | .ok (given, operands) =>
    let o : Options := ⟨given⟩
    match operands, operands.find? (!isNumber ·) with
    | [], _ => c.refuseUsage 1 "missing operand".toList
    | _ :: _ :: _ :: extra :: _, _ => c.refuseUsage 1 ("extra operand ".toList ++ Call.curly extra)
    | _, some bad => c.refuseUsage 1 ("invalid floating point argument: ".toList ++ Call.curly bad)
    | operands, none =>
      let ds := operands.filterMap Decimal.read?
      let one : Decimal := ⟨1, 0⟩
      let (first, step, last) := match ds with
        | [l] => (one, one, l)
        | [f, l] => (f, one, l)
        | f :: s :: l :: _ => (f, s, l)
        | [] => (one, one, one)
      if step.value = 0 then
        c.refuseUsage 1
          ("invalid Zero increment value: ".toList ++ Call.curly (operands[1]?.getD []))
      else
        let places := max first.places step.places
        let all := max places last.places
        let numbers := progression (step.scaled all) (last.scaled all) (first.scaled all)
        let texts := numbers.map fun n => decimalText places (n / 10 ^ (all - places))
        let ends := [decimalText places (first.scaled places),
          decimalText places (last.scaled all / 10 ^ (all - places))]
        let width := (ends.map List.length).foldl max 0
        let texts := if o.has 'w' then texts.map (padZeros width) else texts
        let separator := (o.value? 's').getD ['\n']
        c.report 0 (if texts.isEmpty then [] else Octets.joined separator texts ++ ['\n'])

/-! ## Expressions -/

/-- Why an expression has no value: a complaint and the status. -/
abbrev Problem := Octets × Nat

/-- Reading an expression from words. -/
abbrev Reading := StateT (List Octets) (Except Problem)

def fail {α : Type} (text : Octets) : Reading α := throw (text, 2)

def isTrue (v : Octets) : Bool :=
  v ≠ [] && !(match v with
    | '-' :: ds => ds ≠ [] && ds.all (· = '0')
    | ds => ds.all (· = '0'))

/-- A word as an integer. -/
def integer? (v : Octets) : Option Int :=
  match v with
  | '-' :: ds =>
    if ds ≠ [] ∧ ds.all Char.isDigit then some (-(Integer.valueOf 10 ds : Int)) else none
  | ds => if ds ≠ [] ∧ ds.all Char.isDigit then some (Integer.valueOf 10 ds) else none

/-- An integer as a word. -/
def ofInteger (n : Int) : Octets := decimalText 0 n

/-- A truth value as a word. -/
def ofBool (b : Bool) : Octets := if b then ['1'] else ['0']

/-- What a pattern at the beginning of a text matches: its first group, or the number of
characters. -/
def matching (text pattern : Octets) : Reading Octets := do
  match Regex.read ⟨false, false, false⟩ (Regex.decode pattern) with
  | .error e => throw (e.message.toList, 2)
  | .ok r =>
    let chars := Regex.decode text
    let anchored : Regex := ⟨[[.group 0 r.alternatives]], r.groups⟩
    match anchored.here (64 * (chars.length + 16)) none chars with
    | none => return if r.groups = 0 then ['0'] else []
    | some p =>
      if r.groups = 0 then return Text.decimal p.index
      else return Regex.encode ((p.groups.lookup 1).getD [])

def peek : Reading (Option Octets) := return (← get).head?

/-- Take the next word if it is among some. -/
def accept (words : List String) : Reading (Option String) := do
  match ← get with
  | w :: rest =>
    if words.contains (String.ofList w) then
      set rest
      return some (String.ofList w)
    else return none
  | [] => return none

def takeWord : Reading Octets := do
  match ← get with
  | w :: rest =>
    set rest
    return w
  | [] => fail "syntax error: missing argument after".toList

/-- The operators of each rank. -/
def operators (rank : Nat) : List String :=
  match rank with
  | 0 => ["|"]
  | 1 => ["&"]
  | 2 => ["<", "<=", "=", "==", "!=", ">=", ">"]
  | 3 => ["+", "-"]
  | 4 => ["*", "/", "%"]
  | _ => [":"]

def apply (operator : String) (a b : Octets) : Reading Octets := do
  let numeric (f : Int → Int → Reading Int) : Reading Octets := do
    match integer? a, integer? b with
    | some x, some y => return ofInteger (← f x y)
    | _, _ => fail "non-integer argument".toList
  let order (p : Ordering → Bool) : Octets :=
    match integer? a, integer? b with
    | some x, some y => ofBool (p (compare x y))
    | _, _ => ofBool (p (compare a b))
  match operator with
  | "|" => return if isTrue a then a else if isTrue b then b else ['0']
  | "&" => return if isTrue a ∧ isTrue b then a else ['0']
  | "<" => return order (· == .lt)
  | "<=" => return order (· != .gt)
  | "=" | "==" => return order (· == .eq)
  | "!=" => return order (· != .eq)
  | ">=" => return order (· != .lt)
  | ">" => return order (· == .gt)
  | "+" => numeric fun x y => return x + y
  | "-" => numeric fun x y => return x - y
  | "*" => numeric fun x y => return x * y
  | "/" => numeric fun x y => if y = 0 then fail "division by zero".toList else return x.tdiv y
  | "%" => numeric fun x y => if y = 0 then fail "division by zero".toList else return x.tmod y
  | _ => matching a b

mutual

/-- The value of an expression whose operators have at least a rank. -/
def expression : Nat → Nat → Reading Octets
  | 0, _ => return []
  | fuel + 1, rank => do
    if 5 < rank then operand fuel
    else
      let left ← expression fuel (rank + 1)
      continued fuel rank left

/-- Go on behind a left operand. -/
def continued : Nat → Nat → Octets → Reading Octets
  | 0, _, left => return left
  | fuel + 1, rank, left => do
    match ← accept (operators rank) with
    | none => return left
    | some operator =>
      if (← peek).isNone then
        fail ("syntax error: missing argument after ".toList ++ Call.curly operator.toList)
      let right ← expression fuel (rank + 1)
      continued fuel rank (← apply operator left right)

def operand : Nat → Reading Octets
  | 0 => return []
  | fuel + 1 => do
    let w ← takeWord
    match String.ofList w with
    | "(" =>
      let v ← expression fuel 0
      match ← accept [")"] with
      | some _ => return v
      | none =>
        match ← peek with
        | some x =>
          fail ("syntax error: expecting ')' instead of ".toList ++ Call.curly x)
        | none => fail ("syntax error: expecting ')' after ".toList ++ Call.curly v)
    | ")" => fail "syntax error: unexpected ')'".toList
    | "+" => takeWord
    | "length" => return Text.decimal (Regex.decode (← operand fuel)).length
    | "match" =>
      let s ← operand fuel
      matching s (← operand fuel)
    | "index" =>
      let s := Regex.decode (← operand fuel)
      let set := Regex.decode (← operand fuel)
      return Text.decimal ((s.findIdx? set.contains).elim 0 (· + 1))
    | "substr" =>
      let s := Regex.decode (← operand fuel)
      let start := (integer? (← operand fuel)).getD 0
      let length := (integer? (← operand fuel)).getD 0
      if start ≤ 0 ∨ length ≤ 0 then return []
      else return Regex.encode ((s.drop (start.toNat - 1)).take length.toNat)
    | _ => return w

end

/-- Write the value of an expression. -/
def expr : Tool := fun c =>
  let words := match c.args with
    | ['-', '-'] :: rest => rest
    | args => args
  if words = [] then c.refuseUsage 2 "missing operand".toList
  else
    let whole : Reading Octets := do
      let v ← expression (8 * (words.length + 2)) 0
      match ← get with
      | [] => return v
      | w :: _ => fail ("syntax error: unexpected argument ".toList ++ Call.curly w)
    match whole.run words with
    | .ok (v, _) => c.report (if isTrue v then 0 else 1) (v ++ ['\n'])
    | .error (text, status) => c.refuse status text

end Provenance.Shell.Words

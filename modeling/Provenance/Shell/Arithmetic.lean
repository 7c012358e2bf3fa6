import Provenance.Shell.Octets
import Provenance.Text.Decimal

/-!
# Arithmetic of the shell

Expressions over integers of 64 bits, which wrap around, and over variables, which may be
assigned to. What need not be evaluated has no effect.
-/

namespace Provenance.Shell

/-- Why an expression has no value. -/
inductive ArithmeticError
  | expected (what : String)
  | divisionByZero
  | illegalNumber (text : Octets)
  deriving DecidableEq, Repr

/-- What is wrong with an expression. -/
def ArithmeticError.message (expression : Octets) : ArithmeticError → Octets
  | .expected what =>
    ("arithmetic expression: expecting " ++ what ++ ": \"").toList ++ expression ++ ['"']
  | .divisionByZero =>
    "arithmetic expression: division by zero: \"".toList ++ expression ++ ['"']
  | .illegalNumber text => "Illegal number: ".toList ++ text

namespace Integer

/-- The integer of 64 bits that agrees with another modulo 2⁶⁴. -/
def wrap (n : Int) : Int := n.bmod (2 ^ 64)

def greatest : Int := 2 ^ 63 - 1

def least : Int := -(2 ^ 63)

def isSpace (c : Char) : Bool := c = ' ' || ('\t' ≤ c && c ≤ '\r')

/-- Value of a digit in a base of at most sixteen. -/
def digit? (base : Nat) (c : Char) : Option Nat :=
  let value :=
    if c.isDigit then c.toNat - '0'.toNat
    else if 'a' ≤ c ∧ c ≤ 'f' then c.toNat - 'a'.toNat + 10
    else if 'A' ≤ c ∧ c ≤ 'F' then c.toNat - 'A'.toNat + 10
    else 16
  if value < base then some value else none

def valueOf (base : Nat) (s : Octets) : Nat :=
  s.foldl (fun n c => n * base + (digit? base c).getD 0) 0

/-- Take an unsigned number, whose base is sixteen behind `0x` and eight behind a zero, unless
all numbers are decimal; `none` if there is no digit. -/
def takeUnsigned (decimal : Bool) (s : Octets) : Option (Nat × Octets) :=
  let (base, digits) := match decimal, s with
    | false, '0' :: x :: d :: rest =>
      if (x = 'x' ∨ x = 'X') ∧ (digit? 16 d).isSome then (16, d :: rest) else (8, s)
    | false, '0' :: _ => (8, s)
    | _, _ => (10, s)
  match digits.span fun c => (digit? base c).isSome with
  | ([], _) => none
  | (ds, rest) => some (valueOf base ds, rest)

/-- Read a number with blanks around it; `none` if it is none or does not fit. A blank text is
zero where `blankIsZero` holds. -/
def read? (decimal blankIsZero : Bool) (s : Octets) : Option Int :=
  let trimmed := s.dropWhile isSpace
  let (negative, unsigned) := match trimmed with
    | '-' :: rest => (true, rest)
    | '+' :: rest => (false, rest)
    | rest => (false, rest)
  match takeUnsigned decimal unsigned with
  | none => if blankIsZero ∧ trimmed.isEmpty then some 0 else none
  | some (n, rest) =>
    let value : Int := if negative then -n else n
    if rest.all isSpace ∧ least ≤ value ∧ value ≤ greatest then some value else none

def print (n : Int) : Octets :=
  if n < 0 then '-' :: Text.decimal n.natAbs else Text.decimal n.natAbs

end Integer

namespace Arithmetic

inductive Token
  | number (n : Int)
  | name (s : Octets)
  | symbol (s : String)
  | malformed
  deriving DecidableEq, Repr

/-- Symbols, each before those that it begins with. -/
def symbols : List String :=
  ["<<=", ">>=", "<<", ">>", "<=", ">=", "==", "!=", "&&", "||", "+=", "-=", "*=", "/=", "%=",
    "&=", "^=", "|=", "(", ")", "<", ">", "&", "^", "|", "+", "-", "*", "/", "%", "~", "!", "?",
    ":", "="]

/-- Cut an expression into tokens, at most `fuel` of them. -/
def scan : Nat → Octets → List Token
  | 0, _ => []
  | _ + 1, [] => []
  | fuel + 1, c :: cs =>
    if Integer.isSpace c then scan fuel cs
    else if c.isDigit then
      match Integer.takeUnsigned false (c :: cs) with
      | some (n, rest) => .number (min n Integer.greatest) :: scan fuel rest
      | none => [.malformed]
    else if c.isAlpha ∨ c = '_' then
      let (name, rest) := (c :: cs).span fun c => c.isAlphanum || c = '_'
      .name name :: scan fuel rest
    else
      match symbols.find? fun s => s.toList.isPrefixOf (c :: cs) with
      | some s => .symbol s :: scan fuel ((c :: cs).drop s.length)
      | none => [.malformed]

/-- What is left of an expression, and the variables. -/
structure State where
  tokens : List Token
  lookup : Octets → Octets
  assigned : List (Octets × Int)

abbrev Calculation := StateT State (Except ArithmeticError)

def peek : Calculation (Option Token) := return (← get).tokens.head?

def skip : Calculation Unit := modify fun s => { s with tokens := s.tokens.tail }

/-- Take a symbol if it comes next. -/
def accept (s : String) : Calculation Bool := do
  if (← peek) = some (.symbol s) then
    skip
    return true
  else return false

def valueOf (name : Octets) : Calculation Int := do
  let s ← get
  match s.assigned.lookup name with
  | some n => return n
  | none =>
    match Integer.read? false true (s.lookup name) with
    | some n => return n
    | none => throw (.illegalNumber (s.lookup name))

def assign (name : Octets) (n : Int) : Calculation Unit :=
  modify fun s => { s with assigned := (name, n) :: s.assigned.filter (·.1 ≠ name) }

/-- A truth value as a number. -/
def ofBool (b : Bool) : Int := if b then 1 else 0

/-- The rank of an operator between two operands: those of lower rank are applied first. -/
def rank? (s : String) : Option Nat :=
  match s with
  | "*" | "/" | "%" => some 0
  | "+" | "-" => some 1
  | "<<" | ">>" => some 2
  | "<" | "<=" | ">" | ">=" => some 3
  | "==" | "!=" => some 4
  | "&" => some 5
  | "^" => some 6
  | "|" => some 7
  | _ => none

/-- Combine the bits of two integers. -/
def bitwise (f : Nat → Nat → Nat) (a b : Int) : Int :=
  Integer.wrap (f (a % 2 ^ 64).toNat (b % 2 ^ 64).toNat)

/-- Apply an operator between two operands. -/
def apply (s : String) (a b : Int) : Calculation Int := do
  match s with
  | "*" => return Integer.wrap (a * b)
  | "/" => if b = 0 then throw .divisionByZero else return Integer.wrap (a.tdiv b)
  | "%" => if b = 0 then throw .divisionByZero else return Integer.wrap (a.tmod b)
  | "+" => return Integer.wrap (a + b)
  | "-" => return Integer.wrap (a - b)
  | "<<" => return Integer.wrap (a * 2 ^ (b % 64).toNat)
  | ">>" => return a.fdiv (2 ^ (b % 64).toNat)
  | "<" => return ofBool (decide (a < b))
  | "<=" => return ofBool (decide (a ≤ b))
  | ">" => return ofBool (decide (b < a))
  | ">=" => return ofBool (decide (b ≤ a))
  | "==" => return ofBool (a == b)
  | "!=" => return ofBool (a != b)
  | "&" => return bitwise Nat.land a b
  | "^" => return bitwise Nat.xor a b
  | _ => return bitwise Nat.lor a b

/-- The operator that an assignment applies to the old and the new value. -/
def combined? (s : String) : Option (Option String) :=
  match s with
  | "=" => some none
  | "+=" | "-=" | "*=" | "/=" | "%=" | "&=" | "^=" | "|=" | "<<=" | ">>=" =>
    some (some (String.ofList s.toList.dropLast))
  | _ => none

mutual

/-- The value of an operand. Without effect, variables are not looked at. -/
def primary : Nat → (effect : Bool) → Calculation Int
  | 0, _ => throw (.expected "primary")
  | fuel + 1, effect => do
    let t ← peek
    skip
    match t with
    | some (.number n) => return n
    | some (.name s) => if effect then valueOf s else return 0
    | some (.symbol "(") =>
      let n ← assignment fuel effect
      if ← accept ")" then return n else throw (.expected "')'")
    | some (.symbol "+") => primary fuel effect
    | some (.symbol "-") => return Integer.wrap (-(← primary fuel effect))
    | some (.symbol "!") => return ofBool ((← primary fuel effect) == 0)
    | some (.symbol "~") => return -(← primary fuel effect) - 1
    | _ => throw (.expected "primary")

/-- The value of operands joined by operators of at most the given rank. -/
def binary : Nat → Nat → (effect : Bool) → Calculation Int
  | 0, _, _ => throw (.expected "primary")
  | fuel + 1, top, effect => do
    let left ← primary fuel effect
    binaryFrom fuel top left effect

/-- Go on behind the left operand. -/
def binaryFrom : Nat → Nat → Int → (effect : Bool) → Calculation Int
  | 0, _, left, _ => return left
  | fuel + 1, top, left, effect => do
    match ← peek with
    | some (.symbol s) =>
      match rank? s with
      | some r =>
        if r ≤ top then
          skip
          let right ← match r with
            | 0 => primary fuel effect
            | r + 1 => binary fuel r effect
          let value ← if effect then apply s left right else pure right
          binaryFrom fuel top value effect
        else return left
      | none => return left
    | _ => return left

/-- The value of a conjunction. -/
def conjunction : Nat → (effect : Bool) → Calculation Int
  | 0, _ => throw (.expected "primary")
  | fuel + 1, effect => do
    let left ← binary fuel 7 effect
    if ← accept "&&" then
      let right ← conjunction fuel (effect && left != 0)
      return ofBool (left != 0 && right != 0)
    else return left

/-- The value of a disjunction. -/
def disjunction : Nat → (effect : Bool) → Calculation Int
  | 0, _ => throw (.expected "primary")
  | fuel + 1, effect => do
    let left ← conjunction fuel effect
    if ← accept "||" then
      let right ← disjunction fuel (effect && left == 0)
      return ofBool (left != 0 || right != 0)
    else return left

/-- The value of a choice. -/
def conditional : Nat → (effect : Bool) → Calculation Int
  | 0, _ => throw (.expected "primary")
  | fuel + 1, effect => do
    let condition ← disjunction fuel effect
    if ← accept "?" then
      let left ← assignment fuel (effect && condition != 0)
      if ← accept ":" then
        let right ← conditional fuel (effect && condition == 0)
        return if condition != 0 then left else right
      else throw (.expected "':'")
    else return condition

/-- The value of an expression that may assign. -/
def assignment : Nat → (effect : Bool) → Calculation Int
  | 0, _ => throw (.expected "primary")
  | fuel + 1, effect => do
    match (← get).tokens with
    | .name s :: .symbol o :: _ =>
      match combined? o with
      | none => conditional fuel effect
      | some operator =>
        skip
        skip
        let right ← assignment fuel effect
        if !effect then return right
        else
          let value ← match operator with
            | none => pure right
            | some o => apply o (← valueOf s) right
          assign s value
          return value
    | _ => conditional fuel effect

end

/-- The value of a text as an expression, and the variables that it has set, last first. -/
def evaluate (lookup : Octets → Octets) (text : Octets) :
    Except ArithmeticError (Int × List (Octets × Int)) :=
  let tokens := scan (text.length + 1) text
  let calculation : Calculation Int := do
    let n ← assignment (8 * (tokens.length + 1)) true
    if (← get).tokens.isEmpty then return n else throw (.expected "EOF")
  (calculation.run ⟨tokens, lookup, []⟩).map fun (n, s) => (n, s.assigned)

end Arithmetic

end Provenance.Shell

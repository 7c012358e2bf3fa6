import Provenance.Shell.Arithmetic
import Provenance.Shell.Tool.Call

/-!
# Conditions

Conditions on texts, numbers and files, as words. Four words or fewer have fixed readings; a
longer condition is read as a disjunction of conjunctions.
-/

namespace Provenance.Shell.Condition

/-- What a word is, apart from an operand. -/
inductive Operator
  | unary (letter : Char)
  | binary (name : String)
  | and
  | or
  | not
  | opening
  | closing
  deriving DecidableEq

/-- Why a condition has no value. -/
abbrev Complaint := Octets

/-- The operator that a word is. -/
def operator? (word : Octets) : Option Operator :=
  match word with
  | ['!'] => some .not
  | ['('] => some .opening
  | [')'] => some .closing
  | ['-', 'a'] => some .and
  | ['-', 'o'] => some .or
  | ['-', l] => if "bcdefghknpruswxzGLOSt".toList.contains l then some (.unary l) else none
  | _ =>
    let name := String.ofList word
    if ["=", "!=", "<", ">", "-eq", "-ne", "-gt", "-ge", "-lt", "-le", "-nt", "-ot",
      "-ef"].contains name then some (.binary name) else none

/-- The operator stands between operands. -/
def isBinary : Option Operator → Bool
  | some (.binary _) | some .and | some .or => true
  | _ => false

/-- The first of the words counts as an operand, though it could be an operator before one. -/
def isOperand (words : List Octets) : Bool :=
  match words with
  | _ :: _ :: [] => false
  | _ :: next :: _ :: _ => isBinary (operator? next)
  | _ => true

/-- What the first word is: `none` inside for an operand, outside if there is none. -/
def kind? (words : List Octets) : Option (Option Operator) :=
  match words with
  | [] => none
  | w :: rest =>
    match operator? w with
    | some (.unary l) => some (if isOperand words then none else some (.unary l))
    | some .opening => some (if rest = [] then none else some .opening)
    | o => some o

/-- The value of a word as a number. -/
def number (word : Octets) : Except Complaint Int :=
  match Integer.read? true false word with
  | some n => .ok n
  | none => .error ("Illegal number: ".toList ++ word)

/-- A property of the file that a word names. -/
def ofFile (c : Call) (letter : Char) (path : Octets) : Bool :=
  let target := c.folder.resolveFrom c.place path.toText
  match letter, target with
  | 't', _ => false
  | 'e', .ok (.vacant _) | 'e', .error _ => false
  | 'e', _ => true
  | 'f', .ok (.file _ _) => true
  | 's', .ok (.file _ contents) => contents ≠ []
  | 's', .ok (.directory _) => true
  | 'd', .ok (.directory _) | 'x', .ok (.directory _) => true
  | 'c', .ok (.device (.stream _)) => false
  | 'c', .ok (.device _) => true
  | 'p', .ok (.device (.stream _)) => true
  | 'r', .ok (.vacant _) | 'w', .ok (.vacant _) => false
  | 'r', .ok _ | 'w', .ok _ => true
  | 'O', .ok (.vacant _) | 'G', .ok (.vacant _) => false
  | 'O', .ok _ | 'G', .ok _ => true
  | _, _ => false

/-- The value of a condition on one word. -/
def unary (c : Call) (letter : Char) (word : Octets) : Except Complaint Bool :=
  match letter with
  | 'z' => .ok word.isEmpty
  | 'n' => .ok !word.isEmpty
  | 't' => (number word).map fun _ => false
  | l => .ok (ofFile c l word)

/-- The value of a condition on two words. -/
def binary (c : Call) (name : String) (left right : Octets) : Except Complaint Bool :=
  let compare (p : Int → Int → Bool) : Except Complaint Bool := do
    return p (← number left) (← number right)
  match name with
  | "=" => .ok (left == right)
  | "!=" => .ok (left != right)
  | "<" => .ok (decide (left < right))
  | ">" => .ok (decide (right < left))
  | "-eq" => compare fun a b => a == b
  | "-ne" => compare fun a b => a != b
  | "-gt" => compare fun a b => decide (b < a)
  | "-ge" => compare fun a b => decide (b ≤ a)
  | "-lt" => compare fun a b => decide (a < b)
  | "-le" => compare fun a b => decide (a ≤ b)
  | "-nt" | "-ot" => .ok false
  | _ =>
    .ok (ofFile c 'e' left &&
      decide ((c.folder.resolveFrom c.place left.toText).toOption =
        (c.folder.resolveFrom c.place right.toText).toOption))

mutual

/-- The value of a disjunction and the words behind it. -/
def disjunction (c : Call) : Nat → List Octets → Except Complaint (Bool × List Octets)
  | 0, ws => .ok (false, ws)
  | fuel + 1, ws => do
    let (left, rest) ← conjunction c fuel ws
    match kind? rest with
    | some (some .or) =>
      let (right, rest) ← disjunction c fuel rest.tail
      return (left || right, rest)
    | _ => return (left, rest)

/-- The value of a conjunction and the words behind it. -/
def conjunction (c : Call) : Nat → List Octets → Except Complaint (Bool × List Octets)
  | 0, ws => .ok (false, ws)
  | fuel + 1, ws => do
    let (left, rest) ← negation c fuel ws
    match kind? rest with
    | some (some .and) =>
      let (right, rest) ← conjunction c fuel rest.tail
      return (left && right, rest)
    | _ => return (left, rest)

/-- The value of a condition that may be negated, and the words behind it. -/
def negation (c : Call) : Nat → List Octets → Except Complaint (Bool × List Octets)
  | 0, ws => .ok (false, ws)
  | fuel + 1, ws =>
    match kind? ws with
    | some (some .not) => (negation c fuel ws.tail).map fun (b, rest) => (!b, rest)
    | _ => primary c fuel ws

/-- The value of a condition without operators between conditions, and the words behind it. -/
def primary (c : Call) : Nat → List Octets → Except Complaint (Bool × List Octets)
  | 0, ws => .ok (false, ws)
  | fuel + 1, ws =>
    match kind? ws, ws with
    | none, ws => .ok (false, ws)
    | some (some .opening), _ :: ws =>
      if kind? ws = some (some .closing) then .ok (false, ws.tail)
      else do
        let (b, rest) ← disjunction c fuel ws
        if kind? rest = some (some .closing) then return (b, rest.tail)
        else .error "closing paren expected".toList
    | some (some (.unary l)), w :: ws =>
      match ws with
      | [] => .error (w ++ ": argument expected".toList)
      | v :: rest => (unary c l v).map (·, rest)
    | _, [] => .ok (false, [])
    | _, w :: ws =>
      match ws with
      | o :: rest =>
        match kind? ws with
        | some (some (.binary name)) =>
          match rest with
          | [] => .error (o ++ ": argument expected".toList)
          | v :: rest => (binary c name w v).map (·, rest)
        | _ => .ok (!w.isEmpty, ws)
      | [] => .ok (!w.isEmpty, [])

end

/-- The value of a condition, with words at most `fuel` of which are negations at its front. -/
def evaluate (c : Call) : Nat → List Octets → Except Complaint Bool
  | 0, _ => .ok false
  | _ + 1, [] => .ok false
  | fuel + 1, ws =>
    let whole (ws : List Octets) : Except Complaint Bool := do
      let (b, rest) ← disjunction c (4 * (ws.length + 1)) ws
      if rest = [] then return b
      else
        let last := (ws[ws.length - rest.length - 1]?).getD []
        .error ((if last = [] then [] else last ++ ": ".toList) ++ "unexpected operator".toList)
    match ws with
    | [a, o, b] =>
      match operator? o with
      | some (.binary name) => binary c name a b
      | some .and => .ok (!a.isEmpty && !b.isEmpty)
      | some .or => .ok (!a.isEmpty || !b.isEmpty)
      | _ =>
        if a = ['('] ∧ b = [')'] then whole [o]
        else if a = ['!'] then (evaluate c fuel [o, b]).map (!·)
        else whole ws
    | [a, b, d, e] =>
      if a = ['('] ∧ e = [')'] then whole [b, d]
      else if a = ['!'] then (evaluate c fuel [b, d, e]).map (!·)
      else whole ws
    | ws => whole ws

end Provenance.Shell.Condition

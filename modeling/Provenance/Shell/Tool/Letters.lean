import Provenance.Shell.Pattern
import Provenance.Shell.Tool.Copying
import Provenance.Shell.Tool.Escape

/-!
# Exchanging letters

Bytes of the input are exchanged for others, left out, or squeezed where they are repeated.
-/

namespace Provenance.Shell.Letters

/-- A member of a set as it is written. -/
inductive Item
  | one (c : Char)
  | range (first last : Char)
  | named (name : String)
  /-- A byte that is repeated, as often as is needed if no number is given. -/
  | repeated (c : Char) (count : Option Nat)

/-- Why a set cannot be read. -/
abbrev Complaint := Octets

/-- A byte, which may be written behind a backslash. -/
def byte : Octets → Option (Char × Octets)
  | [] => none
  | '\\' :: c :: rest =>
    if (Integer.digit? 8 c).isSome then
      let (n, rest) := Escape.takeDigits 8 3 (c :: rest)
      some (Escape.byte n, rest)
    else
      match Escape.letter? c with
      | some b => if c = 'e' then some (c, rest) else some (b, rest)
      | none => some (c, rest)
  | c :: rest => some (c, rest)

/-- A byte as it is shown in messages. -/
def shown (c : Char) : Octets := [c]

/-- Read the members of a set, at most `fuel` of them. -/
def items : Nat → Octets → Except Complaint (List Item)
  | 0, _ => .ok []
  | fuel + 1, s => do
    match s with
    | [] => return []
    | '[' :: ':' :: rest =>
      let (name, after) := rest.span Char.isAlpha
      match after with
      | ':' :: ']' :: after =>
        match Pattern.named? (String.ofList name) with
        | some _ => return .named (String.ofList name) :: (← items fuel after)
        | none => throw ("invalid character class ".toList ++ Call.curly name)
      | _ => return .one '[' :: (← items fuel (':' :: rest))
    | '[' :: c :: '*' :: rest =>
      let (digits, after) := rest.span Char.isDigit
      match after with
      | ']' :: after =>
        let n := Integer.valueOf (if digits.head? = some '0' then 8 else 10) digits
        return .repeated c (if n = 0 then none else some n) :: (← items fuel after)
      | _ => return .one '[' :: (← items fuel (c :: '*' :: rest))
    | '[' :: '=' :: c :: '=' :: ']' :: rest => return .one c :: (← items fuel rest)
    | s =>
      match byte s with
      | none => return []
      | some (c, rest) =>
        match rest with
        | '-' :: last :: more =>
          match byte (last :: more) with
          | some (d, after) =>
            if d < c then
              throw ("range-endpoints of ".toList ++
                Call.curly (shown c ++ ['-'] ++ shown d) ++
                " are in reverse collating sequence order".toList)
            else return .range c d :: (← items fuel after)
          | none => return .one c :: (← items fuel rest)
        | rest => return .one c :: (← items fuel rest)

def allBytes : List Char := (List.range 256).map Char.ofNat

/-- The bytes of a member; `missing` are needed where a byte is repeated without a number. -/
def Item.bytes (missing : Nat) : Item → List Char
  | .one c => [c]
  | .range a b => allBytes.filter fun c => a ≤ c ∧ c ≤ b
  | .named name => (Pattern.named? name).elim [] allBytes.filter
  | .repeated c count => List.replicate (count.getD missing) c

/-- The bytes of a set, which is to have a length. -/
def bytesOf (length : Nat) (is : List Item) : List Char :=
  let known := (is.flatMap (Item.bytes 0)).length
  is.flatMap (Item.bytes (length - known))

/-- The pairs of bytes that two sets stand for. Letters of one case are paired with those of the
other one. -/
def pairs (left right : List Char) : List (Char × Char) :=
  let last := right.getLast?.getD '\x00'
  left.zipIdx.map fun (c, i) => (c, (right[i]?).getD last)

/-- Squeeze repetitions of bytes of a set. -/
def squeeze (p : Char → Bool) (s : Octets) : Octets :=
  let step : Octets → Char → Octets
    | last :: done, c => if c = last ∧ p c then last :: done else c :: last :: done
    | [], c => [c]
  (s.foldl step []).reverse

/-- Exchange bytes. -/
def tr : Tool := fun c =>
  let long := [("delete", 'd'), ("squeeze-repeats", 's'), ("complement", 'c'),
    ("truncate-set1", 't')]
  c.withLeading "cCdst" "" long 1 fun o sets =>
    let complement := o.hasAny "cC"
    let read (s : Octets) : Except Complaint (List Item) := items (s.length + 1) s
    let finish (f : Octets → Octets) : Report := c.consumed 0 (f c.input)
    match sets with
    | [] => c.refuseUsage 1 "missing operand".toList
    | first :: others =>
      let twoNeeded := o.has 'd' == o.has 's'
      match others with
      | [] =>
        if twoNeeded then
          c.refuse 1 ("missing operand after ".toList ++ Call.curly first ++ ['\n'] ++
            (if o.has 'd' then "Two strings must be given when both deleting and squeezing repeats."
              else "Two strings must be given when translating.").toList ++ c.hint)
        else
          match read first with
          | .error e => c.refuse 1 e
          | .ok is =>
            let set := bytesOf 0 is
            let p (b : Char) : Bool := set.contains b != complement
            finish fun s => if o.has 'd' then s.filter (!p ·) else squeeze p s
      | second :: more =>
        match more with
        | extra :: _ => c.refuseUsage 1 ("extra operand ".toList ++ Call.curly extra)
        | [] =>
          if o.has 'd' ∧ !o.has 's' then
            c.refuse 1 ("extra operand ".toList ++ Call.curly second ++
              "\nOnly one string may be given when deleting without squeezing repeats.".toList ++
              c.hint)
          else
            match read first, read second with
            | .error e, _ | _, .error e => c.refuse 1 e
            | .ok left, .ok right =>
              let set := bytesOf 0 left
              let p (b : Char) : Bool := set.contains b != complement
              let source := if complement then allBytes.filter p else set
              let target := bytesOf source.length right
              if o.has 'd' then
                finish fun s => squeeze target.contains (s.filter (!p ·))
              else if target = [] ∧ source ≠ [] ∧ !o.has 't' then
                c.refuse 1 "when not truncating set1, string2 must be non-empty".toList
              else
                let source := if o.has 't' then source.take target.length else source
                let table := (pairs source target).reverse
                let exchange (b : Char) : Char := (table.lookup b).getD b
                finish fun s =>
                  let s := s.map exchange
                  if o.has 's' then squeeze target.contains s else s

end Provenance.Shell.Letters

import Provenance.Shell.Octets

/-!
# Patterns

A pattern fits a string as a whole: a star fits any string, a question mark any byte and a
bracket any byte of a set. A character that stood in quotes fits itself alone, and so does an
opening bracket that is never closed.
-/

namespace Provenance.Shell

/-- A member of a set of bytes. -/
inductive Member
  | range (first last : Char)
  | named (p : Char → Bool)

def Member.has (c : Char) : Member → Bool
  | .range first last => first ≤ c && c ≤ last
  | .named p => p c

/-- A part of a pattern. -/
inductive Fit
  | one (c : Char)
  | any
  | many
  | set (negated : Bool) (members : List Member)

namespace Pattern

def named? (name : String) : Option (Char → Bool) :=
  match name with
  | "alpha" => some Char.isAlpha
  | "digit" => some Char.isDigit
  | "alnum" => some Char.isAlphanum
  | "upper" => some Char.isUpper
  | "lower" => some Char.isLower
  | "space" => some fun c => c = ' ' || ('\t' ≤ c && c ≤ '\r')
  | "blank" => some fun c => c = ' ' || c = '\t'
  | "punct" => some fun c => '!' ≤ c && c ≤ '~' && !c.isAlphanum
  | "print" => some fun c => ' ' ≤ c && c ≤ '~'
  | "graph" => some fun c => '!' ≤ c && c ≤ '~'
  | "cntrl" => some fun c => c < ' ' || c = '\x7f'
  | "xdigit" => some fun c => c.isDigit || ('a' ≤ c && c ≤ 'f') || ('A' ≤ c && c ≤ 'F')
  | _ => none

/-- A character of a pattern and whether it is quoted. -/
abbrev Marked := Char × Bool

/-- Read the name of a class behind its opening bracket and colon. -/
def readClass (s : List Marked) : Option ((Char → Bool) × List Marked) :=
  let (name, rest) := s.span fun (c, _) => c.isAlpha
  match named? (String.ofList (name.map Prod.fst)), rest with
  | some p, (':', false) :: (']', false) :: rest => some (p, rest)
  | _, _ => none

/-- Read the members of a set up to its closing bracket, which does not come first. -/
def readMembers : Nat → (first : Bool) → List Marked → Option (List Member × List Marked)
  | 0, _, _ => none
  | _ + 1, _, [] => none
  | fuel + 1, first, (c, q) :: rest =>
    if c = ']' ∧ !q ∧ !first then some ([], rest)
    else
      let byName := match c, q, rest with
        | '[', false, (':', false) :: name => readClass name
        | _, _, _ => none
      match byName with
      | some (p, rest) => (readMembers fuel false rest).map fun (ms, rest) => (.named p :: ms, rest)
      | none =>
        match rest with
        | ('-', false) :: (d, dq) :: after =>
          if d = ']' ∧ !dq then
            (readMembers fuel false rest).map fun (ms, rest) => (.range c c :: ms, rest)
          else (readMembers fuel false after).map fun (ms, rest) => (.range c d :: ms, rest)
        | rest => (readMembers fuel false rest).map fun (ms, rest) => (.range c c :: ms, rest)

/-- Read a set behind its opening bracket. -/
def readSet (s : List Marked) : Option (Fit × List Marked) :=
  let (negated, rest) := match s with
    | ('!', false) :: rest => (true, rest)
    | s => (false, s)
  (readMembers (rest.length + 1) true rest).map fun (ms, rest) => (.set negated ms, rest)

/-- Put a part before a pattern. A star says no more than the star behind it. -/
def cons : Fit → List Fit → List Fit
  | .many, .many :: ps => .many :: ps
  | p, ps => p :: ps

/-- The parts of a pattern, at most `fuel` of them. No two stars follow each other. -/
def read : Nat → List Marked → List Fit
  | 0, _ => []
  | _ + 1, [] => []
  | fuel + 1, (c, true) :: rest => cons (.one c) (read fuel rest)
  | fuel + 1, ('*', false) :: rest => cons .many (read fuel rest)
  | fuel + 1, ('?', false) :: rest => cons .any (read fuel rest)
  | fuel + 1, ('\\', false) :: (c, _) :: rest => cons (.one c) (read fuel rest)
  | fuel + 1, ('[', false) :: rest =>
    match readSet rest with
    | some (fit, rest) => cons fit (read fuel rest)
    | none => cons (.one '[') (read fuel rest)
  | fuel + 1, (c, false) :: rest => cons (.one c) (read fuel rest)

def ofMarked (s : List Marked) : List Fit := read (s.length + 1) s

/-! ## Fitting

While a string is read, all that may be left of the pattern is kept: the ends of the pattern that
the rest of the string would have to fit, longest first and none of them twice. -/

/-- The byte fits the part, which is no star. -/
def admits (c : Char) : Fit → Bool
  | .one d => c = d
  | .any => true
  | .many => true
  | .set negated ms => (ms.any (Member.has c)) != negated

/-- Add what is left of a pattern where it begins with a star, which may fit nothing more. -/
def widened : List (List Fit) → List (List Fit) := List.flatMap fun
  | .many :: ps => [.many :: ps, ps]
  | ps => [ps]

/-- Leave out what stands twice in a row, told by its length. -/
def distinct : List (List Fit) → List (List Fit)
  | ps :: qs :: rest =>
    if ps.length = qs.length then distinct (qs :: rest) else ps :: distinct (qs :: rest)
  | rest => rest

/-- What is left of a pattern at the beginning of a string. -/
def start (p : List Fit) : List (List Fit) := widened [p]

/-- What is left behind one more byte. -/
def step (left : List (List Fit)) (c : Char) : List (List Fit) :=
  distinct <| widened <| distinct <| left.filterMap fun
    | .many :: ps => some (.many :: ps)
    | p :: ps => if admits c p then some ps else none
    | [] => none

/-- The pattern fits all that was read. -/
def isOver (left : List (List Fit)) : Bool := left.any List.isEmpty

/-- The pattern fits the whole string. -/
def fits (p : List Fit) (s : Octets) : Bool := isOver (s.foldl step (start p))

/-- The lengths of the beginnings of a string that a pattern fits, longest first. -/
def lengths (p : List Fit) (s : Octets) : List Nat :=
  let note (left : List (List Fit)) (n : Nat) (done : List Nat) : List Nat :=
    if isOver left then n :: done else done
  let next : List (List Fit) × Nat × List Nat → Char → List (List Fit) × Nat × List Nat
    | (left, n, done), c =>
      let left := step left c
      (left, n + 1, note left (n + 1) done)
  (s.foldl next (start p, 0, note (start p) 0 [])).2.2

/-- Something in the pattern may fit more than one string. -/
def isWild (s : List Marked) : Bool :=
  s.any fun (c, q) => !q && (c = '*' || c = '?' || c = '[')

/-- The string without the shortest or longest part at its beginning that the pattern fits. -/
def trimStart (longest : Bool) (p : List Fit) (s : Octets) : Octets :=
  let ns := lengths p s
  s.drop ((if longest then ns.head? else ns.getLast?).getD 0)

/-- The string without the shortest or longest part at one end that the pattern fits. -/
def trim (atEnd longest : Bool) (p : List Fit) (s : Octets) : Octets :=
  if atEnd then (trimStart longest p.reverse s.reverse).reverse else trimStart longest p s

end Pattern

end Provenance.Shell

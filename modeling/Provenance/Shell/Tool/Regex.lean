import Provenance.Shell.Pattern

/-!
# Regular expressions

Expressions in the basic and in the extended notation are read as alternatives of sequences of
nodes. A match is the leftmost one, and among alternatives the longest.

## Implementation notes

Matching goes through a list of nodes that are still to be matched; a group puts a note behind
its body that remembers where it began. Each step costs one unit of fuel; repetitions of a
single character count as one step. Characters are those
of a text, so that a point fits one character and not one byte; a byte that encodes none is kept
as a character beyond the usual ones.
-/

namespace Provenance.Shell

/-- A part of a regular expression. -/
inductive Node
  | one (p : Char → Bool)
  | beginning
  | ending
  /-- A place inside or at the border of a word. -/
  | border (kind : Char)
  | group (number : Nat) (alternatives : List (List Node))
  | again (number : Nat)
  | repeated (body : Node) (least : Nat) (most : Option Nat)
  /-- The end of a group, which began at an index where some text was left. -/
  | endOfGroup (number index : Nat) (start : List Char)
  /-- Somewhere behind an index. -/
  | progress (index : Nat)
  deriving Inhabited

/-- A regular expression with its number of groups. -/
structure Regex where
  alternatives : List (List Node)
  groups : Nat

namespace Regex

/-! ## Characters -/

/-- The character that stands for a byte which encodes none. -/
def strayByte (c : Char) : Char := Char.ofNat (0x10FF00 + c.toNat % 256)

/-- The characters that bytes encode, at most `fuel` of them, behind those in `done`, which are in
reverse. -/
def decodeOnto : Nat → (done : List Char) → Octets → List Char
  | 0, done, _ => done.reverse
  | _ + 1, done, [] => done.reverse
  | fuel + 1, done, c :: cs =>
    if c < '\x80' then decodeOnto fuel (c :: done) cs
    else
      let width := if c < '\xe0' then 2 else if c < '\xf0' then 3 else 4
      match Text.Utf8.decode? (Octets.toBytes ((c :: cs).take width)) with
      | some [d] => decodeOnto fuel (d :: done) ((c :: cs).drop width)
      | _ => decodeOnto fuel (strayByte c :: done) cs

def decode (s : Octets) : List Char := decodeOnto (s.length + 1) [] s

/-- The bytes that characters are encoded as. -/
def encode (cs : List Char) : Octets :=
  cs.flatMap fun c =>
    if c < '\x80' then [c]
    else if 0x10FF00 ≤ c.toNat then [Char.ofNat (c.toNat - 0x10FF00)]
    else Octets.ofText (String.ofList [c])

/-- The character is one of a text, and not a byte that encodes none. -/
def isProper (c : Char) : Bool := c.toNat < 0x10FF00

def isWordChar (c : Char) : Bool := c.isAlphanum || c = '_' || ('\x80' ≤ c && c.toNat < 0x10FF00)

/-! ## Reading expressions -/

/-- The notation and what it allows. -/
structure Notation where
  isExtended : Bool
  ignoresCase : Bool
  /-- Whether a repetition of nothing and a parenthesis that closes nothing are mistakes. -/
  isStrict : Bool

/-- A character that fits a set in one of its cases. -/
def fold (n : Notation) (p : Char → Bool) : Char → Bool :=
  if n.ignoresCase then fun c => p c || p c.toLower || p c.toUpper else p

/-- Why an expression cannot be read. -/
inductive Malformed
  | unmatchedOpening
  | unmatchedClosing
  | unmatchedBracket
  /-- A bracket at the very end. -/
  | loneBracket
  | unknownClass
  /-- The name of a class with one bracket instead of two. -/
  | bareClass
  | unknownCollation
  | invalidRange
  | invalidRepetition
  | unmatchedBrace
  | invalidBounds
  | tooLarge
  | invalidReference
  | trailingBackslash
  deriving DecidableEq

/-- What is wrong with an expression. -/
def Malformed.message : Malformed → String
  | unmatchedOpening => "Unmatched ( or \\("
  | unmatchedClosing => "Unmatched ) or \\)"
  | unmatchedBracket => "Unmatched [, [^, [:, [., or [="
  | loneBracket => "Invalid regular expression"
  | unknownClass => "Invalid character class name"
  | bareClass => "character class syntax is [[:space:]], not [:space:]"
  | unknownCollation => "Invalid collation character"
  | invalidRange => "Invalid range end"
  | invalidRepetition => "Invalid preceding regular expression"
  | unmatchedBrace => "Unmatched \\\x7b"
  | invalidBounds => "Invalid content of \\\x7b\\\x7d"
  | tooLarge => "Regular expression too big"
  | invalidReference => "Invalid back reference"
  | trailingBackslash => "Trailing backslash"

/-- Reading an expression: what is left of it, the number of groups so far, and how many of
them are open. -/
structure State where
  rest : List Char
  groups : Nat
  depth : Nat

abbrev Reading := StateT State (Except Malformed)

/-- Take a text if it comes next. -/
def accept (text : String) : Reading Bool := do
  let s ← get
  if text.toList.isPrefixOf s.rest then
    set { s with rest := s.rest.drop text.length }
    return true
  else return false

/-- Cut a text at the first place where a mark stands, which is left out. -/
def cutAt (mark : List Char) : List Char → Option (List Char × List Char)
  | [] => none
  | c :: cs =>
    if mark.isPrefixOf (c :: cs) then some ([], (c :: cs).drop mark.length)
    else (cutAt mark cs).map fun (before, after) => (c :: before, after)

/-- Largest number of repetitions that can be asked for. -/
def repetitionLimit : Nat := 32767

/-- The bounds that a text between braces stands for. -/
def bounds? (text : List Char) : Option (Nat × Option Nat) :=
  let value (ds : List Char) : Nat := ds.foldl (fun v c => v * 10 + (c.toNat - '0'.toNat)) 0
  match text.span Char.isDigit with
  | ([], []) => none
  | (least, []) => some (value least, some (value least))
  | (least, ',' :: most) =>
    if !most.all Char.isDigit then none
    else some (value least, if most = [] then none else some (value most))
  | _ => none

/-- Read the bounds of a repetition behind its opening brace. Where not everything is a mistake, a
brace without bounds stands for itself. -/
def readBounds (n : Notation) : Reading (Option (Nat × Option Nat)) := do
  let s ← get
  let isFirm := n.isStrict || !n.isExtended
  match cutAt (if n.isExtended then "\x7d" else "\\\x7d").toList s.rest with
  | none => if isFirm then throw .unmatchedBrace else return none
  | some (text, rest) =>
    match bounds? text with
    | none => if isFirm then throw .invalidBounds else return none
    | some (least, most) =>
      if most.any (· < least) then throw .invalidBounds
      if repetitionLimit < most.getD least then throw .tooLarge
      set { s with rest := rest }
      return some (least, most)

/-- Read a repetition behind a node, if there is one. -/
def readRepetition? (n : Notation) (node : Node) : Reading (Option Node) := do
  let s ← get
  if ← accept "*" then return some (.repeated node 0 none)
  else if ← accept (if n.isExtended then "+" else "\\+") then
    return some (.repeated node 1 none)
  else if ← accept (if n.isExtended then "?" else "\\?") then
    return some (.repeated node 0 (some 1))
  else if ← accept (if n.isExtended then "\x7b" else "\\\x7b") then
    match ← readBounds n with
    | some (least, most) => return some (.repeated node least most)
    | none =>
      set s
      return none
  else return none

/-- A repetition of a repetition comes next that the basic notation does not know. -/
def isDoubled (n : Notation) (rest : List Char) : Bool :=
  n.isStrict && !n.isExtended && (['*'].isPrefixOf rest || ['\\', '\x7b'].isPrefixOf rest)

/-- Read the repetitions behind a node. -/
def readRepetitions (n : Notation) : Nat → Node → Reading Node
  | 0, node => return node
  | fuel + 1, node => do
    match ← readRepetition? n node with
    | none => return node
    | some node =>
      if isDoubled n (← get).rest then throw .invalidRepetition
      readRepetitions n fuel node

/-- An element of a set: characters with a property, or one character. -/
inductive Element
  | kind (p : Char → Bool)
  | one (c : Char)

/-- Read an element of a set; a hyphen that is no element by itself stands at the beginning, at the
end or at the end of a range. -/
def readElement (allowsHyphen : Bool) : List Char → Except Malformed (Element × List Char)
  | '[' :: ':' :: rest =>
    match cutAt [':', ']'] rest with
    | none => .error .unmatchedBracket
    | some (name, rest) =>
      match Pattern.named? (String.ofList name) with
      | some p => .ok (.kind p, rest)
      | none => .error .unknownClass
  | '[' :: mark :: rest =>
    if mark = '.' ∨ mark = '=' then
      match cutAt [mark, ']'] rest with
      | none => .error .unmatchedBracket
      | some ([c], rest) => .ok (.one c, rest)
      | some _ => .error .unknownCollation
    else .ok (.one '[', mark :: rest)
  | '-' :: rest =>
    if allowsHyphen ∨ rest.head? = some ']' then .ok (.one '-', rest) else .error .invalidRange
  | c :: rest => .ok (.one c, rest)
  | [] => .error .unmatchedBracket

/-- Read the members of a set up to its closing bracket, which does not come first. -/
def readMembers : Nat → (first : Bool) → List Char →
    Except Malformed (List Member × List Char)
  | 0, _, _ => .error .unmatchedBracket
  | fuel + 1, first, text =>
    if text.head? = some ']' ∧ !first then .ok ([], text.tail)
    else do
      let (element, rest) ← readElement first text
      let (member, rest) ← match element, rest with
        | .one c, '-' :: ']' :: _ => pure (Member.range c c, rest)
        | .kind p, '-' :: ']' :: _ => pure (Member.named p, rest)
        | .one c, '-' :: more => do
          match ← readElement true more with
          | (.one d, rest) => if d < c then throw .invalidRange else pure (Member.range c d, rest)
          | (.kind _, _) => throw .invalidRange
        | .kind _, '-' :: _ => throw .invalidRange
        | .one c, rest => pure (Member.range c c, rest)
        | .kind p, rest => pure (Member.named p, rest)
      let (members, rest) ← readMembers fuel false rest
      return (member :: members, rest)

/-- Read a set behind its opening bracket. -/
def readSet (n : Notation) : Reading Node := do
  let s ← get
  let (negated, text) := match s.rest with
    | '^' :: text => (true, text)
    | text => (false, text)
  if s.rest = [] then throw .loneBracket
  match readMembers (text.length + 1) true text with
  | .error e => throw e
  | .ok (members, rest) =>
    let inside := text.take (text.length - rest.length - 1)
    if inside.head? = some ':' ∧ inside.getLast? = some ':' ∧ 1 < inside.length then
      throw .bareClass
    set { s with rest := rest }
    let has (c : Char) : Bool := members.any (Member.has c)
    return .one fun c => isProper c && fold n has c != negated

/-- The node of a character behind a backslash, if it has a meaning of its own. -/
def escapeNode? (c : Char) : Option Node :=
  match c with
  | 'n' => some (.one (· = '\n'))
  | 't' => some (.one (· = '\t'))
  | 'r' => some (.one (· = '\r'))
  | 'f' => some (.one (· = '\x0c'))
  | 'v' => some (.one (· = '\x0b'))
  | 'a' => some (.one (· = '\x07'))
  | 'w' => some (.one isWordChar)
  | 'W' => some (.one fun c => isProper c && !isWordChar c)
  | 's' => some (.one fun c => c = ' ' || ('\t' ≤ c && c ≤ '\r'))
  | 'S' => some (.one fun c => isProper c && !(c = ' ' || ('\t' ≤ c && c ≤ '\r')))
  | 'b' | 'B' | '<' | '>' => some (.border c)
  | '\x60' => some .beginning
  | '\x27' => some .ending
  | _ => none

/-- The node is a place between characters, which cannot be repeated. -/
def isPlace : Node → Bool
  | .beginning | .ending | .border _ => true
  | _ => false

/-- What is left where a repetition has nothing to repeat: it is left out, if that is no
mistake. -/
def skipRepetitions (n : Notation) : Nat → Reading Unit
  | 0 => return ()
  | fuel + 1 => do
    let s ← get
    match s.rest with
    | c :: rest =>
      if c = '*' ∨ c = '+' ∨ c = '?' then
        if n.isStrict then throw .invalidRepetition
        set { s with rest := rest }
        skipRepetitions n fuel
      else if c = '\x7b' then
        if n.isStrict then throw .invalidRepetition
        set { s with rest := rest }
        match ← readBounds n with
        | some _ => skipRepetitions n fuel
        | none => set s
      else return ()
    | [] => return ()

mutual

/-- Read alternatives up to the end or to what closes a group. -/
def readAlternatives (n : Notation) : Nat → Reading (List (List Node))
  | 0 => return []
  | fuel + 1 => do
    let first ← readSequence n fuel true
    if ← accept (if n.isExtended then "|" else "\\|") then
      return first :: (← readAlternatives n fuel)
    else return [first]

/-- Read a sequence of nodes; `first` says that none has been read yet, or only places. -/
def readSequence (n : Notation) : Nat → (first : Bool) → Reading (List Node)
  | 0, _ => return []
  | fuel + 1, first => do
    if n.isExtended ∧ first then skipRepetitions n fuel
    let s ← get
    match s.rest with
    | [] => return []
    | c :: rest =>
      let isClosing :=
        if n.isExtended then c = '|' || (c = ')' && (0 < s.depth || n.isStrict))
        else c = '\\' && (rest.head? = some ')' || rest.head? = some '|')
      if isClosing then return []
      else
        let node ← readNode n fuel first c rest
        if isPlace node then return node :: (← readSequence n fuel true)
        else
          let node ← readRepetitions n fuel node
          return node :: (← readSequence n fuel false)

/-- Read a node, whose first character is known. -/
def readNode (n : Notation) : Nat → (first : Bool) → Char → List Char → Reading Node
  | 0, _, _, _ => return .beginning
  | fuel + 1, first, c, rest => do
    modify fun s => { s with rest := rest }
    let literal (c : Char) : Node := .one (fold n (· = c))
    match c with
    | '.' => return .one isProper
    | '[' => readSet n
    | '^' => return if n.isExtended || first then .beginning else literal '^'
    | '$' =>
      let isLast := match rest with
        | [] => true
        | '\\' :: d :: _ => d = ')' || d = '|'
        | _ => false
      return if n.isExtended || isLast then .ending else literal '$'
    | '\\' =>
      match rest with
      | [] => throw .trailingBackslash
      | d :: rest =>
        modify fun s => { s with rest := rest }
        if d = '(' ∧ !n.isExtended then readGroup n fuel
        else if d = '\x7b' ∧ !n.isExtended ∧ n.isStrict then throw .invalidRepetition
        else if d.isDigit ∧ d ≠ '0' then
          let k := d.toNat - '0'.toNat
          if (← get).groups < k then throw .invalidReference else return .again k
        else return (escapeNode? d).getD (literal d)
    | '(' => if n.isExtended then readGroup n fuel else return literal '('
    | c => return literal c

/-- Read a group behind its opening parenthesis. -/
def readGroup (n : Notation) : Nat → Reading Node
  | 0 => throw .unmatchedOpening
  | fuel + 1 => do
    let number := (← get).groups + 1
    modify fun s => { s with groups := number, depth := s.depth + 1 }
    let alternatives ← readAlternatives n fuel
    if ← accept (if n.isExtended then ")" else "\\)") then
      modify fun s => { s with depth := s.depth - 1 }
      return .group number alternatives
    else throw .unmatchedOpening

end

def read (n : Notation) (expression : List Char) : Except Malformed Regex := do
  let (alternatives, s) ←
    (readAlternatives n (8 * (expression.length + 1))).run ⟨expression, 0, 0⟩
  match s.rest with
  | [] => return ⟨alternatives, s.groups⟩
  | _ => throw .unmatchedClosing

/-! ## Matching -/

/-- Where a match stands: the character before, its index and what is left, and the parts that
groups have matched. -/
structure Position where
  before : Option Char
  index : Nat
  rest : List Char
  groups : List (Nat × List Char)

/-- The longer of two matches, the first if they are equally long. -/
def longer (a b : Option Position) : Option Position :=
  match a, b with
  | some p, some q => if p.index < q.index then some q else some p
  | some p, none => some p
  | none, q => q

/-- The place between two characters is of a kind: the beginning or end of a word, either, none
of them, or a place where no word goes on to the left or to the right. -/
def isBorder (kind : Char) (before after : Option Char) : Bool :=
  let left := before.any isWordChar
  let right := after.any isWordChar
  match kind with
  | '<' => !left && right
  | '>' => left && !right
  | 'b' => left != right
  | 'L' => !left
  | 'R' => !right
  | _ => left == right

/-- What is left behind a text that must come next. -/
def dropText? : List Char → List Char → Option (List Char)
  | [], rest => some rest
  | _ :: _, [] => none
  | c :: cs, d :: ds => if c = d then dropText? cs ds else none

/-- The positions that are reached over characters with a property, at most so many if there is a
limit, the last one first. -/
def positionsOver (f : Char → Bool) (groups : List (Nat × List Char)) :
    (rest : List Char) → (most : Option Nat) → Option Char → (index : Nat) → List Position →
    List Position
  | [], _, before, index, done => ⟨before, index, [], groups⟩ :: done
  | c :: rest, most, before, index, done =>
    let reached := ⟨before, index, c :: rest, groups⟩ :: done
    if f c && most != some 0 then
      positionsOver f groups rest (most.map (· - 1)) (some c) (index + 1) reached
    else reached

def matchNodes : Nat → List Node → Position → Option Position
  | 0, _, _ => none
  | _ + 1, [], p => some p
  | fuel + 1, node :: nodes, p =>
    match node with
    | .one f =>
      match p.rest with
      | c :: rest =>
        if f c then
          matchNodes fuel nodes { p with before := some c, index := p.index + 1, rest := rest }
        else none
      | [] => none
    | .beginning => if p.before.isNone then matchNodes fuel nodes p else none
    | .ending => if p.rest.isEmpty then matchNodes fuel nodes p else none
    | .border kind =>
      if isBorder kind p.before p.rest.head? then matchNodes fuel nodes p else none
    | .group k alternatives =>
      alternatives.foldl (fun best nodes' =>
        longer best
          (matchNodes fuel (nodes' ++ .endOfGroup k p.index p.rest :: nodes) p)) none
    | .endOfGroup k index start =>
      let text := start.take (p.index - index)
      matchNodes fuel nodes { p with groups := (k, text) :: p.groups.filter (·.1 ≠ k) }
    | .again k =>
      match p.groups.lookup k with
      | none => none
      | some text =>
        (dropText? text p.rest).bind fun rest =>
          matchNodes fuel nodes
            { p with
              before := text.getLast?.or p.before
              index := p.index + text.length
              rest := rest }
    | .repeated (.one f) least most =>
      let reached := positionsOver f p.groups p.rest most p.before p.index []
      let enough := reached.take (reached.length - least)
      enough.findSome? (matchNodes fuel nodes)
    | .repeated body least most =>
      let fewer := most.map (· - 1)
      if 0 < least then matchNodes fuel (body :: .repeated body (least - 1) fewer :: nodes) p
      else if most = some 0 then matchNodes fuel nodes p
      else
        let more := matchNodes fuel
          (body :: .progress p.index :: .repeated body 0 fewer :: nodes) p
        more.or (matchNodes fuel nodes p)
    | .progress index => if index < p.index then matchNodes fuel nodes p else none

/-- A match: the text before it, the matched text and what its groups have matched, and the
text behind it. -/
structure Match where
  before : List Char
  text : List Char
  groups : List (Nat × List Char)
  after : List Char

/-- The match that begins at a position and ends behind an index, if an index is given. -/
def reach (r : Regex) (fuel : Nat) (behind : Option Nat) (start : Position) : Option Position :=
  let last := behind.toList.map .progress
  r.alternatives.foldl (fun best nodes =>
    longer best (matchNodes fuel (nodes ++ last) start)) none

/-- Look for matches that are longer than one that has been found, at most `tries` times. -/
def lengthen (r : Regex) (fuel : Nat) (start : Position) : (tries : Nat) → Position → Position
  | 0, p => p
  | tries + 1, p =>
    if p.rest.isEmpty then p
    else
      match r.reach fuel (some p.index) start with
      | some q => lengthen r fuel start tries q
      | none => p

/-- The longest match that begins where a text begins which stands behind a character. -/
def here (r : Regex) (fuel : Nat) (before : Option Char) (text : List Char) : Option Position :=
  let start : Position := ⟨before, 0, text, []⟩
  (r.reach fuel none start).map (r.lengthen fuel start fuel)

/-- The first match in a text. `passed` holds the characters that have been passed over, the
last one first. -/
def firstBehind (r : Regex) (fuel : Nat) (before : Option Char) (passed : List Char) :
    List Char → Option Match
  | [] => (r.here fuel before []).map fun p => ⟨passed.reverse, [], p.groups, p.rest⟩
  | c :: rest =>
    match r.here fuel before (c :: rest) with
    | some p => some ⟨passed.reverse, (c :: rest).take p.index, p.groups, p.rest⟩
    | none => firstBehind r fuel (some c) (c :: passed) rest

/-- Fuel for matching anywhere in a text. -/
def fuel (text : List Char) : Nat := 64 * (text.length + 16)

/-- The first match in a text that stands behind a character. -/
def first (r : Regex) (fuel : Nat) (before : Option Char) (text : List Char) : Option Match :=
  r.firstBehind fuel before [] text

def isIn (r : Regex) (text : List Char) : Bool := (r.first (fuel text) none text).isSome

end Regex

end Provenance.Shell

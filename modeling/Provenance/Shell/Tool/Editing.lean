import Provenance.Shell.Tool.Copying
import Provenance.Shell.Tool.Regex

/-!
# Editing streams

A program of commands is carried out on each line of the input. Commands are chosen by
addresses and change the line, keep it for later, or write it.

## Implementation notes

A program is a flat list. The beginning of a block jumps behind its end if the block is not
chosen, and so does a branch to its label. The steps of a run are bounded by the number of lines
and commands.
-/

namespace Provenance.Shell.Editing

/-! ## Programs -/

/-- What an address stands for. -/
inductive Address
  | line (n : Nat)
  | last
  | fits (r : Option Regex)
  | every (first step : Nat)

/-- Where a range ends. -/
inductive Stop
  | address (a : Address)
  | after (lines : Nat)
  | multiple (n : Nat)

/-- The lines for which a command is carried out. -/
structure Choice where
  start : Option Address
  stop : Option Stop
  negated : Bool

/-- How letters are changed in what is put in. -/
inductive Casing
  | upper
  | lower
  | upperNext
  | lowerNext
  | asIs

/-- A part of what is put in for a match. -/
inductive Part
  | text (s : List Char)
  | group (n : Nat)
  | casing (c : Casing)

structure Replacement where
  regex : Option Regex
  parts : List Part
  /-- The first match that is replaced. -/
  first : Nat
  all : Bool
  prints : Bool
  file : Option Octets

inductive Action
  | block (stop : Nat)
  | stop
  | label (name : Octets)
  | branch (condition : Option Bool) (name : Octets)
  | replace (r : Replacement)
  | map (pairs : List (Char × Char))
  | insert (text : Octets)
  | append (text : Octets)
  | change (text : Octets)
  | readFile (path : Octets)
  | writeFile (path : Octets)
  | quit (silent : Bool) (status : Nat)
  | letter (c : Char)

structure Command where
  choice : Choice
  action : Action

/-! ## Reading programs -/

/-- Reading a program: what is left of it, and how much has been read. -/
structure State where
  rest : Octets
  count : Nat

/-- Reading, which may end in a complaint at a place. -/
abbrev Reading := StateT State (Except (Nat × Octets))

def fail {α : Type} (text : String) : Reading α := do throw ((← get).count, text.toList)

def peek : Reading (Option Char) := return (← get).rest.head?

def next : Reading (Option Char) := do
  let s ← get
  match s.rest with
  | [] => return none
  | c :: rest =>
    set (⟨rest, s.count + 1⟩ : State)
    return some c

def takeWhile (p : Char → Bool) : Reading Octets := do
  let s ← get
  let (taken, rest) := s.rest.span p
  set (⟨rest, s.count + taken.length⟩ : State)
  return taken

def isBlank (c : Char) : Bool := c = ' ' || c = '\t'

def number : Reading Nat := do
  return (← takeWhile Char.isDigit).foldl (fun n d => n * 10 + (Text.digit? d).getD 0) 0

/-- The character that a letter behind a backslash stands for everywhere. -/
def escaped? (c : Char) : Option Char :=
  match c with
  | 't' => some '\t'
  | 'f' => some '\x0c'
  | 'v' => some '\x0b'
  | 'a' => some '\x07'
  | 'r' => some '\r'
  | _ => none

/-- A text in which letters behind backslashes stand for characters. -/
def unescaped : Octets → Octets
  | '\\' :: c :: rest =>
    if c = 'n' then '\n' :: unescaped rest
    else
      match escaped? c with
      | some e => e :: unescaped rest
      | none => '\\' :: c :: unescaped rest
  | c :: rest => c :: unescaped rest
  | [] => []

/-- A place in a set: among its members, behind a bracket that may open a name, inside a name
between two marks, or behind a mark that may close it. -/
inductive SetPlace
  | members
  | bracket
  | name (mark : Char)
  | mark (mark : Char)

/-- The length of what is left of a set, with its closing bracket. -/
def setLength : SetPlace → Octets → Option Nat
  | _, [] => none
  | .members, c :: rest =>
    if c = ']' then some 1
    else (setLength (if c = '[' then .bracket else .members) rest).map (· + 1)
  | .bracket, c :: rest =>
    if c = ']' then some 1
    else
      let next : SetPlace :=
        if c = ':' ∨ c = '.' ∨ c = '=' then .name c else if c = '[' then .bracket else .members
      (setLength next rest).map (· + 1)
  | .name m, c :: rest => (setLength (if c = m then .mark m else .name m) rest).map (· + 1)
  | .mark m, c :: rest =>
    let next : SetPlace := if c = ']' then .members else if c = m then .mark m else .name m
    (setLength next rest).map (· + 1)

/-- Read the rest of a set behind its opening bracket, in which letters behind backslashes stand
for characters. -/
def setText : Reading (Option Octets) := do
  let s ← get
  let lead := (if s.rest.head? = some '^' then 1 else 0)
  let lead := if (s.rest.drop lead).head? = some ']' then lead + 1 else lead
  match setLength .members (s.rest.drop lead) with
  | none =>
    set (⟨[], s.count + s.rest.length⟩ : State)
    return none
  | some n =>
    let text := s.rest.take (lead + n)
    set (⟨s.rest.drop (lead + n), s.count + lead + n⟩ : State)
    return if text.contains '\n' then none else some (unescaped text)

/-- Read up to a mark, which is taken too. The mark itself may stand behind a backslash. -/
def delimited (mark : Char) (isRegex : Bool) : Nat → Octets → Reading (Option Octets)
  | 0, _ => return none
  | fuel + 1, done => do
    match ← next with
    | none => return none
    | some '\n' => return none
    | some c =>
      if c = mark then return some done.reverse
      else if c = '[' ∧ isRegex then
        match ← setText with
        | none => return none
        | some text => delimited mark isRegex fuel (text.reverse ++ '[' :: done)
      else if c = '\\' then
        match ← next with
        | none => return none
        | some d =>
          if d = 'n' ∧ isRegex then delimited mark isRegex fuel ('\n' :: done)
          else if d = mark ∧ (isRegex ∨ d ≠ '&') then delimited mark isRegex fuel (d :: done)
          else if d = '\n' then
            delimited mark isRegex fuel (if isRegex then '\n' :: done else '\n' :: '\\' :: done)
          else
            match escaped? d with
            | some e => delimited mark isRegex fuel (e :: done)
            | none => delimited mark isRegex fuel (d :: '\\' :: done)
      else delimited mark isRegex fuel (c :: done)

/-- Read up to a mark, or complain. -/
def upTo (mark : Char) (isRegex : Bool) (complaint : String) : Reading Octets := do
  let s ← get
  match ← delimited mark isRegex (s.rest.length + 1) [] with
  | some text => return text
  | none => fail complaint

/-- The regular expression of a text; the empty text stands for the last one that was used. -/
def regexOf (isExtended ignoresCase : Bool) (text : Octets) : Reading (Option Regex) := do
  if text = [] then return none
  else
    match Regex.read ⟨isExtended, ignoresCase, true⟩ (Regex.decode text) with
    | .ok r => return some r
    | .error e => fail e.message

/-- Read an address, if there is one. -/
def address? (isExtended : Bool) : Reading (Option Address) := do
  match ← peek with
  | some c =>
    if c.isDigit then
      let n ← number
      let _ ← takeWhile isBlank
      if (← peek) = some '~' then
        let _ ← next
        return some (.every n (← number))
      else return some (.line n)
    else if c = '$' then
      let _ ← next
      return some .last
    else if c = '/' ∨ c = '\\' then
      let _ ← next
      let mark ← if c = '/' then pure (some '/') else next
      match mark with
      | none => fail "unexpected \x60,'"
      | some mark =>
        let text ← upTo mark true "unterminated address regex"
        let flags ← takeWhile fun c => c = 'I' ∨ c = 'M'
        return some (.fits (← regexOf isExtended (flags.contains 'I') text))
    else return none
  | none => return none

/-- Read the lines for which a command is carried out. -/
def choice (isExtended : Bool) : Reading Choice := do
  let start ← address? isExtended
  let _ ← takeWhile isBlank
  let stop ←
    if start.isSome ∧ (← peek) = some ',' then
      let _ ← next
      let _ ← takeWhile isBlank
      match ← peek with
      | some '+' =>
        let _ ← next
        pure (some (Stop.after (← number)))
      | some '~' =>
        let _ ← next
        pure (some (Stop.multiple (← number)))
      | _ =>
        match ← address? isExtended with
        | some a => pure (some (Stop.address a))
        | none => fail "unexpected \x60,'"
    else pure none
  let marks ← takeWhile fun c => isBlank c ∨ c = '!'
  return ⟨start, stop, marks.contains '!'⟩

def endCommand : Reading Unit := do
  let _ ← takeWhile isBlank
  match ← peek with
  | none => return
  | some c =>
    if c = '\n' ∨ c = ';' then
      let _ ← next
    else if c = '\x7d' ∨ c = '#' then return
    else
      let _ ← next
      fail "extra characters after command"

/-- The lines of a text that a command brings along: a backslash before a newline continues
it. -/
def textLines : Nat → Octets → Reading Octets
  | 0, done => return done.reverse
  | fuel + 1, done => do
    match ← next with
    | none => return done.reverse
    | some '\n' => return done.reverse
    | some '\\' =>
      match ← next with
      | none => return done.reverse
      | some c => textLines fuel (c :: done)
    | some c => textLines fuel (c :: done)

/-- The text of a command, on its line or on the next ones. -/
def commandText : Reading Octets := do
  let _ ← takeWhile isBlank
  match ← peek with
  | none => fail "expected \\ after \x60a', \x60c' or \x60i'"
  | some '\\' =>
    let _ ← next
    let _ ← takeWhile isBlank
    if (← peek) = some '\n' then
      let _ ← next
    let s ← get
    return (← textLines (s.rest.length + 1) []) ++ ['\n']
  | some _ =>
    let s ← get
    return (← textLines (s.rest.length + 1) []) ++ ['\n']

/-- The parts of what is put in for a match. -/
def parts : Nat → List Char → List Part
  | 0, _ => []
  | _ + 1, [] => []
  | fuel + 1, '&' :: rest => .group 0 :: parts fuel rest
  | fuel + 1, '\\' :: c :: rest =>
    let part : Part := match c with
      | 'n' => .text ['\n']
      | 'U' => .casing .upper
      | 'L' => .casing .lower
      | 'u' => .casing .upperNext
      | 'l' => .casing .lowerNext
      | 'E' => .casing .asIs
      | c => if c.isDigit then .group (c.toNat - '0'.toNat) else .text [c]
    part :: parts fuel rest
  | fuel + 1, c :: rest => .text [c] :: parts fuel rest

/-- The greatest group that is put in. -/
def greatestGroup (ps : List Part) : Nat :=
  ps.foldl (fun n p => match p with
    | .group k => max n k
    | _ => n) 0

structure Flags where
  all : Bool
  prints : Bool
  ignoresCase : Bool
  number : Option Nat
  file : Option Octets

/-- Read the options of a replacement. -/
def flags : Nat → Flags → Reading Flags
  | 0, f => return f
  | fuel + 1, f => do
    match ← peek with
    | some 'g' =>
      let _ ← next
      if f.all then fail "multiple \x60g' options to \x60s' command"
      flags fuel { f with all := true }
    | some 'p' =>
      let _ ← next
      if f.prints then fail "multiple \x60p' options to \x60s' command"
      flags fuel { f with prints := true }
    | some 'i' | some 'I' =>
      let _ ← next
      flags fuel { f with ignoresCase := true }
    | some 'm' | some 'M' =>
      let _ ← next
      flags fuel f
    | some 'w' =>
      let _ ← next
      let _ ← takeWhile isBlank
      return { f with file := some (← takeWhile (· ≠ '\n')) }
    | some c =>
      if c.isDigit then
        if f.number.isSome then fail "multiple number options to \x60s' command"
        let n ← number
        if n = 0 then fail "number option to \x60s' command may not be zero"
        flags fuel { f with number := some n }
      else if c = '\n' ∨ c = ';' ∨ c = '\x7d' ∨ c = '#' ∨ isBlank c then return f
      else
        let _ ← next
        fail "unknown option to \x60s'"
    | none => return f

/-- Read a replacement behind its letter. -/
def replacement (isExtended : Bool) : Reading Action := do
  let unterminated := "unterminated \x60s' command"
  match ← next with
  | none => fail unterminated
  | some mark =>
    if mark = '\n' ∨ mark = '\\' then fail unterminated
    let pattern ← upTo mark true unterminated
    let text ← upTo mark false unterminated
    let f ← flags 100 ⟨false, false, false, none, none⟩
    let regex ← regexOf isExtended f.ignoresCase pattern
    endCommand
    let ps := parts (text.length + 1) (Regex.decode text)
    let k := greatestGroup ps
    if regex.any fun r => r.groups < k then
      fail ("invalid reference \\" ++ toString k ++ " on \x60s' command's RHS")
    return .replace ⟨regex, ps, f.number.getD 1, f.all, f.prints, f.file⟩

/-- The characters of a list that maps characters. -/
def mapped : List Char → List Char
  | '\\' :: '\\' :: rest => '\\' :: mapped rest
  | '\\' :: 'n' :: rest => '\n' :: mapped rest
  | c :: rest => c :: mapped rest
  | [] => []

/-- Read a command behind its addresses. -/
def action (isExtended : Bool) (c : Char) : Reading Action := do
  match c with
  | 's' => replacement isExtended
  | 'y' =>
    let unterminated := "unterminated \x60y' command"
    match ← next with
    | none => fail unterminated
    | some mark =>
      let left := mapped (Regex.decode (← upTo mark false unterminated))
      let right := mapped (Regex.decode (← upTo mark false unterminated))
      if left.length ≠ right.length then fail "strings for \x60y' command are different lengths"
      endCommand
      return .map (left.zip right)
  | 'a' => return .append (← commandText)
  | 'i' => return .insert (← commandText)
  | 'c' => return .change (← commandText)
  | 'r' | 'w' =>
    let _ ← takeWhile isBlank
    let path ← takeWhile (· ≠ '\n')
    if path = [] then fail "missing filename in r/R/w/W commands"
    return if c = 'r' then .readFile path else .writeFile path
  | 'b' | 't' | 'T' =>
    let _ ← takeWhile isBlank
    let name ← takeWhile fun c => !(c = '\n' ∨ c = ';' ∨ isBlank c ∨ c = '\x7d')
    endCommand
    return .branch (if c = 'b' then none else some (c = 't')) name
  | 'q' | 'Q' =>
    let _ ← takeWhile isBlank
    let status ← number
    endCommand
    return .quit (c = 'Q') (status % 256)
  | 'l' | 'L' =>
    let _ ← takeWhile isBlank
    let _ ← number
    endCommand
    return .letter 'l'
  | c =>
    if "=dDgGhHnNpPxz".toList.contains c then
      endCommand
      return .letter c
    else fail ("unknown command: \x60" ++ String.ofList [c] ++ "'")

/-- Read the commands of a program. `blocks` holds the places where blocks have begun that are
not yet ended. -/
def commands (isExtended : Bool) : Nat → List Nat → Array Command → Reading (Array Command)
  | 0, _, done => return done
  | fuel + 1, blocks, done => do
    let _ ← takeWhile fun c => isBlank c ∨ c = '\n' ∨ c = ';'
    match ← peek with
    | none =>
      if blocks = [] then return done
      else throw (0, "unmatched \x60\x7b'".toList)
    | some '#' =>
      let _ ← takeWhile (· ≠ '\n')
      commands isExtended fuel blocks done
    | some _ =>
      let choice ← choice isExtended
      match ← next with
      | none => fail "missing command"
      | some '\n' => fail "missing command"
      | some '\x7b' => commands isExtended fuel (done.size :: blocks) (done.push ⟨choice, .block 0⟩)
      | some '\x7d' =>
        match blocks with
        | [] => fail "unexpected \x60\x7d'"
        | start :: blocks =>
          if choice.start.isSome then fail "\x7d doesn't want any addresses"
          endCommand
          let done := done.modify start fun k => { k with action := .block (done.size + 1) }
          commands isExtended fuel blocks (done.push ⟨choice, .stop⟩)
      | some ':' =>
        if choice.start.isSome then fail ": doesn't want any addresses"
        let _ ← takeWhile isBlank
        let name ← takeWhile fun c => !(c = '\n' ∨ c = ';' ∨ isBlank c)
        if name = [] then fail "\":\" lacks a label"
        commands isExtended fuel blocks (done.push ⟨choice, .label name⟩)
      | some c =>
        let a ← action isExtended c
        commands isExtended fuel blocks (done.push ⟨choice, a⟩)

/-- A label that is branched to and that is nowhere. -/
def missingLabel? (program : Array Command) : Option Octets :=
  program.toList.findSome? fun k =>
    match k.action with
    | .branch _ name =>
      let there := program.any fun k =>
        match k.action with
        | .label n => n = name
        | _ => false
      if name = [] ∨ there then none else some name
    | _ => none

/-- Read a program, given in several pieces. -/
def program (isExtended : Bool) (pieces : List Octets) : Except Octets (Array Command) :=
  let text := Octets.joined ['\n'] pieces
  match (commands isExtended (text.length + 1) [] #[]).run ⟨text, 0⟩ with
  | .ok (program, _) =>
    match missingLabel? program with
    | some name => .error ("-e expression #1, char ".toList ++ Text.decimal text.length ++
        ": ".toList ++ "can't find label for jump to \x60".toList ++ name ++ ['\x27'])
    | none => .ok program
  | .error (place, complaint) =>
    let step : Nat × Nat → Octets → Nat × Nat
      | (number, left), piece =>
        if piece.length < left ∧ number < pieces.length then (number + 1, left - piece.length - 1)
        else (number, left)
    let (number, left) := pieces.foldl step (1, place)
    .error ("-e expression #".toList ++ Text.decimal number ++ ", char ".toList ++
      Text.decimal left ++ ": ".toList ++ complaint)

/-! ## Running programs -/

/-- What a run has come to. -/
structure Run where
  /-- The line that is being edited. -/
  text : List Char
  complete : Bool
  kept : List Char
  /-- Lines that have not been read, each with whether it is complete. -/
  lines : List (Octets × Bool)
  number : Nat
  /-- Replaced something since the last line was read or the last branch. -/
  replaced : Bool
  /-- Ranges in which the line is, by command: the line where they end, if this is known. -/
  ranges : List (Nat × Option Nat)
  regex : Option Regex
  /-- What will be written behind the line. -/
  queue : List Octets
  out : List Octets
  /-- The last line that was written was not complete. -/
  pending : Bool
  folder : Folder

/-- What is to be done next. -/
inductive Next
  | go (place : Nat)
  | finish (prints : Bool)
  | restart
  | quit (prints : Bool) (status : Nat)

/-- Where the files are that a program reads and writes. -/
structure Place where
  directory : Directory
  isSilent : Bool

/-- Write a text, behind the end of a line that was not complete. -/
def Run.put (r : Run) (s : Octets) : Run :=
  let s := if r.pending then '\n' :: s else s
  { r with out := s :: r.out, pending := false }

/-- Write a line, which is only ended if it was. -/
def Run.putLine (r : Run) (text : List Char) (complete : Bool) : Run :=
  let r := r.put (Regex.encode text ++ (if complete then ['\n'] else []))
  { r with pending := !complete }

/-- Write what was to be written behind the line. -/
def Run.flush (r : Run) : Run := { r.queue.foldl Run.put r with queue := [] }

/-- The regular expression that is meant, which is then the last one. -/
def Run.use (r : Run) (regex : Option Regex) : Option Regex × Run :=
  match regex with
  | some e => (some e, { r with regex := some e })
  | none => (r.regex, r)

/-- The address holds for the line. -/
def Run.isAt (r : Run) (a : Address) : Bool × Run :=
  match a with
  | .line n => (r.number = n, r)
  | .last => (r.lines.isEmpty, r)
  | .every first step =>
    (if step = 0 then r.number = first else first ≤ r.number ∧ (r.number - first) % step = 0, r)
  | .fits e =>
    let (e, r) := r.use e
    (e.any (Regex.isIn · r.text), r)

/-- Begin a range at the line, for the command at a place. -/
def Run.beginRange (r : Run) (place : Nat) (stop : Stop) : Run :=
  let goOn (last : Option Nat) : Run := { r with ranges := (place, last) :: r.ranges }
  match stop with
  | .address (.line n) => if n ≤ r.number then r else goOn (some n)
  | .address _ => goOn none
  | .after n => if n = 0 then r else goOn (some (r.number + n))
  | .multiple n =>
    if n = 0 ∨ r.number % n = 0 then r else goOn (some ((r.number / n + 1) * n))

/-- The command at a place is chosen for the line. -/
def Run.isChosen (r : Run) (place : Nat) (c : Choice) : Bool × Run :=
  match c.start, c.stop with
  | none, _ => (!c.negated, r)
  | some a, none =>
    let (b, r) := r.isAt a
    (b != c.negated, r)
  | some a, some stop =>
    let leave : Run := { r with ranges := r.ranges.filter (·.1 ≠ place) }
    match r.ranges.lookup place with
    | some (some last) =>
      if r.number < last then (!c.negated, r)
      else if r.number = last then (!c.negated, leave)
      else
        let (b, r) := leave.isAt a
        (b != c.negated, if b then r.beginRange place stop else r)
    | some none =>
      match stop with
      | .address e =>
        let (b, r') := r.isAt e
        (!c.negated, if b then { r' with ranges := r'.ranges.filter (·.1 ≠ place) } else r')
      | _ => (!c.negated, leave)
    | none =>
      match a, stop with
      | .line 0, .address e =>
        if r.number = 1 then
          let (b, r') := r.isAt e
          (!c.negated, if b then r' else { r' with ranges := (place, none) :: r'.ranges })
        else (c.negated, r)
      | a, stop =>
        let (b, r) := r.isAt a
        (b != c.negated, if b then r.beginRange place stop else r)

/-- Change the letters of a text; the last mark for one letter holds for its first letter. -/
def recase (whole once : Casing) (s : List Char) : List Char :=
  let body := match whole with
    | .upper => s.map Char.toUpper
    | .lower => s.map Char.toLower
    | _ => s
  match once, body with
  | .upperNext, c :: cs => c.toUpper :: cs
  | .lowerNext, c :: cs => c.toLower :: cs
  | _, body => body

/-- What is put in for a match. -/
def putIn (m : Regex.Match) (ps : List Part) : List Char :=
  let step : List (List Char) × Casing × Casing → Part → List (List Char) × Casing × Casing
    | (done, whole, once), p =>
      let add (s : List Char) : List (List Char) × Casing × Casing :=
        (recase whole once s :: done, whole, if s = [] then once else .asIs)
      match p with
      | .text s => add s
      | .group 0 => add m.text
      | .group k => add ((m.groups.lookup k).getD [])
      | .casing .upperNext => (done, whole, .upperNext)
      | .casing .lowerNext => (done, whole, .lowerNext)
      | .casing c => (done, c, .asIs)
  (ps.foldl step ([], .asIs, .asIs)).1.reverse.flatten

/-- Replacing in a text: the pieces that are finished, the last one first, the number of matches
that were found, and whether any was replaced. -/
structure Progress where
  done : List (List Char)
  seen : Nat
  changed : Bool

/-- The text that has come out, with what is left of it; `none` if nothing was replaced. -/
def Progress.finish (p : Progress) (rest : List Char) : Option (List Char) :=
  if p.changed then some (rest :: p.done).reverse.flatten else none

/-- Replace matches in what is left of a text; the last match ended where that begins if `touches`
says so. Matching has a fuel of its own. -/
def replaceFrom (e : Regex) (rep : Replacement) (matching : Nat) :
    Nat → Progress → (touches : Bool) → Option Char → List Char → Option (List Char)
  | 0, p, _, _, text => p.finish text
  | fuel + 1, p, touches, before, text =>
    match e.first matching before text with
    | none => p.finish text
    | some m =>
      if m.text = [] ∧ m.before = [] ∧ touches then
        match text with
        | [] => p.finish []
        | c :: rest =>
          replaceFrom e rep matching fuel { p with done := [c] :: p.done } false (some c) rest
      else
        let isDue := rep.first ≤ p.seen + 1
        let piece := if isDue then putIn m rep.parts else m.text
        let p : Progress := ⟨piece :: m.before :: p.done, p.seen + 1, p.changed || isDue⟩
        if isDue ∧ !rep.all then p.finish m.after
        else if m.text = [] then
          match m.after with
          | [] => p.finish []
          | c :: rest =>
            replaceFrom e rep matching fuel { p with done := [c] :: p.done } false (some c) rest
        else replaceFrom e rep matching fuel p true m.text.getLast? m.after

/-- Replace matches in a text; `none` if there is nothing to be replaced. -/
def replaceIn (e : Regex) (rep : Replacement) (text : List Char) : Option (List Char) :=
  replaceFrom e rep (Regex.fuel text) (2 * text.length + 4) ⟨[], 0, false⟩ false none text

/-- A line with what cannot be seen made visible, cut into short lines. -/
def unambiguous (text : List Char) : Octets :=
  let one (c : Char) : Octets :=
    match c with
    | '\\' => "\\\\".toList
    | '\x07' => "\\a".toList
    | '\x08' => "\\b".toList
    | '\x0c' => "\\f".toList
    | '\n' => "\\n".toList
    | '\r' => "\\r".toList
    | '\t' => "\\t".toList
    | '\x0b' => "\\v".toList
    | c =>
      if ' ' ≤ c ∧ c ≤ '~' then [c]
      else
        (Regex.encode [c]).flatMap fun b =>
          '\\' :: (Nat.toDigits 8 b.toNat).leftpad 3 '0'
  let step : Octets × Nat → Octets → Octets × Nat
    | (done, width), piece =>
      if 69 < width + piece.length then (piece.reverse ++ '\n' :: '\\' :: done, piece.length)
      else (piece.reverse ++ done, width + piece.length)
  ((text.map one).foldl step ([], 0)).1.reverse ++ ['$', '\n']

/-- Write to a file, or to the output by its name. -/
def Run.writeTo (r : Run) (p : Place) (path : Octets) (s : Octets) : Run :=
  if path = "/dev/stdout".toList then r.put s
  else
    match r.folder.forWriting p.directory path.toText with
    | .ok (.inr file) =>
      let before := (r.folder.lookup? file).getD []
      { r with folder := r.folder.put file (before ++ s.toBytes) }
    | _ => r

def Run.advance (r : Run) (join : Bool) : Option Run :=
  match r.lines with
  | [] => none
  | (l, complete) :: rest =>
    let text := Regex.decode l
    some { r with
      text := if join then r.text ++ '\n' :: text else text
      complete := complete
      lines := rest
      number := r.number + 1 }

/-- The place of a label; the end of the program if there is none. -/
def labelPlace (program : Array Command) (name : Octets) : Nat :=
  (program.toList.findIdx? fun k =>
    match k.action with
    | .label n => n = name
    | _ => false).getD program.size

/-- Carry out the action at a place. -/
def Run.act (r : Run) (p : Place) (program : Array Command) (place : Nat) (a : Action) :
    Next × Run :=
  let go := Next.go (place + 1)
  match a with
  | .block _ | .stop | .label _ => (go, r)
  | .branch condition name =>
    let target := if name = [] then program.size else labelPlace program name
    match condition with
    | none => (.go target, r)
    | some expected =>
      if r.replaced = expected then (.go target, { r with replaced := false })
      else (go, { r with replaced := false })
  | .replace rep =>
    let (e, r) := r.use rep.regex
    match e.bind fun e => replaceIn e rep r.text with
    | none => (go, r)
    | some text =>
      let r := { r with text := text, replaced := true }
      let r := if rep.prints then r.putLine text r.complete else r
      (go, rep.file.elim r fun path => r.writeTo p path (Regex.encode text ++ ['\n']))
  | .map pairs => (go, { r with text := r.text.map fun c => (pairs.lookup c).getD c })
  | .insert text => (go, r.put text)
  | .append text => (go, { r with queue := r.queue ++ [text] })
  | .change text =>
    let choice := (program[place]?.map Command.choice).getD ⟨none, none, false⟩
    let goesOn := choice.stop.isSome ∧ !choice.negated ∧ (r.ranges.lookup place).isSome
    (.finish false, if goesOn then r else r.put text)
  | .readFile path =>
    let found := if path = "/dev/stdin".toList then .error .noEntry
      else r.folder.resolveFrom p.directory path.toText
    match found with
    | .ok (.file _ contents) => (go, { r with queue := r.queue ++ [Octets.ofBytes contents] })
    | _ => (go, r)
  | .writeFile path => (go, r.writeTo p path (Regex.encode r.text ++ ['\n']))
  | .quit silent status => (.quit (!silent) status, r)
  | .letter c =>
    match c with
    | '=' => (go, r.put (Text.decimal r.number ++ ['\n']))
    | 'd' => (.finish false, r)
    | 'D' =>
      if r.text.contains '\n' then
        (.restart, { r with text := (r.text.dropWhile (· ≠ '\n')).drop 1 })
      else (.finish false, r)
    | 'g' => (go, { r with text := r.kept })
    | 'G' => (go, { r with text := r.text ++ '\n' :: r.kept })
    | 'h' => (go, { r with kept := r.text })
    | 'H' => (go, { r with kept := r.kept ++ '\n' :: r.text })
    | 'x' => (go, { r with text := r.kept, kept := r.text })
    | 'z' => (go, { r with text := [] })
    | 'l' => (go, r.put (unambiguous r.text))
    | 'p' => (go, r.putLine r.text r.complete)
    | 'P' => (go, r.putLine (r.text.takeWhile (· ≠ '\n')) true)
    | 'n' =>
      if r.lines.isEmpty then (.quit true 0, r)
      else
        let r := if p.isSilent then r else r.putLine r.text r.complete
        (go, (r.flush.advance false).getD r)
    | 'N' =>
      if r.lines.isEmpty then (.quit true 0, r)
      else (go, (r.flush.advance true).getD r)
    | _ => (go, r)

/-- Carry out a program from a place on, as long as there are lines. The result is the status. -/
def Run.steps (p : Place) (program : Array Command) : Nat → Nat → Run → Nat × Run
  | 0, _, r => (0, r)
  | fuel + 1, place, r =>
    let outcome : Next × Run := match program[place]? with
      | none => (.finish true, r)
      | some k =>
        let (b, r) := r.isChosen place k.choice
        match b, k.action with
        | true, a => r.act p program place a
        | false, .block stop => (.go stop, r)
        | false, _ => (.go (place + 1), r)
    let written (prints : Bool) (r : Run) : Run :=
      (if prints ∧ !p.isSilent then r.putLine r.text r.complete else r).flush
    match outcome with
    | (.go place, r) => steps p program fuel place r
    | (.restart, r) => steps p program fuel 0 r.flush
    | (.quit prints status, r) => (status, written prints r)
    | (.finish prints, r) =>
      match (written prints r).advance false with
      | some r => steps p program fuel 0 { r with replaced := false }
      | none => (0, written prints r)

/-- Number of steps that no program that ends goes beyond. -/
def stepLimit : Nat := 2 ^ 62

/-- Carry out a program on lines. -/
def run (p : Place) (program : Array Command) (folder : Folder) (lines : List (Octets × Bool)) :
    Nat × Run :=
  let start : Run := ⟨[], true, [], lines, 0, false, [], none, [], [], false, folder⟩
  match start.advance false with
  | none => (0, start)
  | some r => r.steps p program stepLimit 0

/-! ## The tool -/

def longOptions : List (String × Char) :=
  [("quiet", 'n'), ("silent", 'n'), ("expression", 'e'), ("file", 'f'), ("regexp-extended", 'E'),
    ("separate", 's'), ("null-data", 'z'), ("unbuffered", 'u'), ("posix", 'p'),
    ("in-place", 'i')]

/-- Turn the option to edit files in place, with the end of the names of copies, into one that
always has a value. -/
def expandInPlace (args : List Octets) : List Octets :=
  args.map fun
    | '-' :: letters =>
      let (before, after) := letters.span fun c => "nErsuz".toList.contains c
      match after with
      | 'i' :: suffix => '-' :: before ++ ['i', '='] ++ suffix
      | _ => '-' :: letters
    | a => a

/-- Edit the lines of files. -/
def sed : Tool := fun c =>
  match Given.read true "nErsuzp".toList "efi".toList longOptions (c.args.length + 1)
      (expandInPlace c.args) with
  | .error e =>
    ⟨1, [(true, c.complaint e ++ "Usage: ".toList ++ c.name ++
      " [OPTION]... \x7bscript-only-if-no-other-script\x7d [input-file]...\n".toList)], c.input,
      c.folder⟩
  | .ok (given, operands) =>
    let o : Options := ⟨given⟩
    let chosen := given.filterMap fun (l, v) =>
      if l = 'e' then some v
      else if l = 'f' then some (Octets.trimEnd (· = '\n') ((c.read v).toOption.getD []))
      else none
    let (scripts, names) := if chosen = [] then (operands.take 1, operands.drop 1)
      else (chosen, operands)
    if scripts = [] then
      ⟨1, [(true, "Usage: ".toList ++ c.name ++
        " [OPTION]... \x7bscript-only-if-no-other-script\x7d [input-file]...\n".toList)], c.input,
        c.folder⟩
    else
      let unprinted := match scripts with
        | ('#' :: 'n' :: rest) :: _ => rest = [] || rest.head? = some '\n'
        | _ => false
      match program (o.hasAny "Er") scripts with
      | .error complaint => c.refuse 1 complaint
      | .ok program =>
        let p : Place := ⟨c.place, o.has 'n' || unprinted⟩
        let complaint (name : Octets) (e : OsError) : Octets :=
          c.complaint (match e with
            | .isDirectory => "couldn't read ".toList ++ name ++ ": Is a directory".toList
            | e => "can't read ".toList ++ name ++ ": ".toList ++ e.reason.toList)
        let (sources, taken) := c.sources names
        let errors := sources.filterMap fun (name, s) =>
          match s with
          | .error e => some (true, complaint name e)
          | .ok _ => none
        let failed := if errors.isEmpty then 0 else 2
        let good := sources.filterMap fun (name, s) => s.toOption.map fun s => (name, s)
        let text (r : Run) : Octets := r.out.reverse.flatten
        if o.has 'i' then
          let step : Nat × Folder → Octets × Octets → Nat × Folder
            | (status, folder), (name, s) =>
              let (n, r) := run p program folder (Copying.completeLines s)
              match r.folder.forWriting c.place name.toText with
              | .ok (.inr path) => (max status n, r.folder.put path (text r).toBytes)
              | _ => (max status n, r.folder)
          let (status, folder) := good.foldl step (0, c.folder)
          ⟨if failed = 0 then status else failed, errors, c.input, folder⟩
        else
          let join : Octets → Octets × Octets → Octets
            | done, (_, s) =>
              if done ≠ [] ∧ done.getLast? ≠ some '\n' ∧ s ≠ [] then done ++ '\n' :: s
              else done ++ s
          let whole := good.foldl join []
          let (status, r) := run p program c.folder (Copying.completeLines whole)
          let rest := if taken then Copying.restOf c ((r.lines.flatMap fun (l, complete) =>
            if complete then l ++ ['\n'] else l)) else c.input
          ⟨if status = 0 then failed else status, errors ++ [(false, text r)], rest, r.folder⟩

end Provenance.Shell.Editing

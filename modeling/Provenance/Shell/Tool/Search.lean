import Provenance.Shell.Tool.Copying
import Provenance.Shell.Tool.Regex

/-!
# Searching

Lines that fit a pattern, with names of files, numbers and other lines around them on demand.
-/

namespace Provenance.Shell.Search

/-- The alternatives of a pattern as nodes, with what must stand at its borders. -/
def bounded (kind : Option Char) (r : Regex) : Regex :=
  match kind with
  | some 'x' => ⟨[[.beginning, .group 0 r.alternatives, .ending]], r.groups⟩
  | some _ => ⟨[[.border 'L', .group 0 r.alternatives, .border 'R']], r.groups⟩
  | none => r

/-- A pattern that stands for itself. -/
def literal (ignoresCase : Bool) (text : List Char) : Regex :=
  ⟨[text.map fun c => .one (Regex.fold ⟨false, ignoresCase, false⟩ (· = c))], 0⟩

/-- Put several patterns together, each of which counts its own groups. -/
def together (rs : List Regex) : Regex := ⟨rs.flatMap Regex.alternatives, 0⟩

/-- Read a pattern, which may consist of several lines. -/
def pattern (o : Options) (isExtended : Bool) (text : Octets) : Except Regex.Malformed Regex := do
  let patterns := (Octets.splitAt '\n' text).map Regex.decode
  let ignoresCase := o.hasAny "iy"
  let kind := if o.has 'x' then some 'x' else if o.has 'w' then some 'w' else none
  let rs ← patterns.mapM fun p =>
    if o.has 'F' then pure (literal ignoresCase p)
    else Regex.read ⟨isExtended, ignoresCase, false⟩ p
  return bounded kind (together rs)

/-- All matches in a text that are not empty, behind those in `done`, which are in reverse.
Matching has a fuel of its own. -/
def matchesFrom (r : Regex) (matching : Nat) :
    Nat → (done : List (List Char)) → Option Char → List Char → List (List Char)
  | 0, done, _, _ => done.reverse
  | fuel + 1, done, before, text =>
    match r.first matching before text with
    | none => done.reverse
    | some m =>
      match m.text, m.after with
      | [], [] => done.reverse
      | [], c :: after => matchesFrom r matching fuel done (some c) after
      | t, after => matchesFrom r matching fuel (t :: done) t.getLast? after

/-- All matches in a text that are not empty. -/
def matchesIn (r : Regex) (text : List Char) : List (List Char) :=
  matchesFrom r (Regex.fuel text) (text.length + 1) [] none text

/-- How a line of the output begins: with the name of its file and its number. -/
def lead (name : Option Octets) (number : Option Nat) (mark : Char) : Octets :=
  name.elim [] (· ++ [mark]) ++ number.elim [] fun n => Text.decimal n ++ [mark]

/-- The lines to be shown, given which of them are chosen: each with whether it is chosen and
whether lines before it are left out. -/
def around (before after : Nat) (chosen : List (Nat × Octets × Bool)) :
    List (Nat × Octets × Bool × Bool) :=
  let numbers := (chosen.filter fun (_, _, b) => b).map Prod.fst
  let kept := chosen.filter fun (n, _, _) => numbers.any fun k => k ≤ n + before ∧ n ≤ k + after
  let step : Option Nat × List (Nat × Octets × Bool × Bool) → Nat × Octets × Bool →
      Option Nat × List (Nat × Octets × Bool × Bool)
    | (last, done), (n, l, b) => (some n, (n, l, b, last.any fun k => k + 1 < n) :: done)
  (kept.foldl step (none, [])).2.reverse

/-- The lines that are shown of one text, and whether anything was found. -/
def search (o : Options) (r : Regex) (name : Option Octets) (limit : Option Nat)
    (before after : Nat) (contents : Octets) : Bool × List Octets :=
  let lines := (Octets.lines contents).zipIdx.map fun (l, i) =>
    (i + 1, l, (r.isIn (Regex.decode l)) != o.has 'v')
  let hits := lines.filter fun (_, _, b) => b
  let hits := limit.elim hits hits.take
  let found := !hits.isEmpty
  let number (n : Nat) : Option Nat := if o.has 'n' then some n else none
  let out :=
    if o.has 'q' then []
    else if o.has 'l' then (if found then [name.getD []] else [])
    else if o.has 'L' then (if found then [] else [name.getD []])
    else if o.has 'c' then [lead name none ':' ++ Text.decimal hits.length]
    else if o.has 'o' then
      if o.has 'v' then []
      else
        hits.flatMap fun (n, l, _) =>
          (matchesIn r (Regex.decode l)).map fun t =>
            lead name (number n) ':' ++ Regex.encode t
    else if before = 0 ∧ after = 0 then
      hits.map fun (n, l, _) => lead name (number n) ':' ++ l
    else
      let last := (hits.getLast?.map Prod.fst).getD 0
      let lines := if limit.isSome then lines.filter fun (n, _, _) => n ≤ last + after else lines
      let lines := lines.map fun (n, l, b) => (n, l, b && n ≤ last)
      (around before after lines).flatMap fun (n, l, b, gap) =>
        let line := lead name (number n) (if b then ':' else '-') ++ l
        if gap then [['-', '-'], line] else [line]
  (found, out)

/-- What is written of lines that were found in a text which may hold bytes that no text would
hold, and whether some of it was left out: all of it behind a zero byte, else what encodes no
characters. -/
def printable (o : Options) (contents : Octets) (lines : List Octets) : Octets × Bool :=
  let kept :=
    if o.hasAny "aqclL" then lines
    else if contents.contains '\x00' then []
    else lines.filter fun l => (Text.Utf8.decode? l.toBytes).isSome
  (kept.flatMap (· ++ ['\n']), kept.length < lines.length)

def longOptions : List (String × Char) :=
  [("extended-regexp", 'E'), ("fixed-strings", 'F'), ("basic-regexp", 'G'), ("regexp", 'e'),
    ("file", 'f'), ("ignore-case", 'i'), ("invert-match", 'v'), ("word-regexp", 'w'),
    ("line-regexp", 'x'), ("count", 'c'), ("files-with-matches", 'l'),
    ("files-without-match", 'L'), ("quiet", 'q'), ("silent", 'q'), ("no-messages", 's'),
    ("line-number", 'n'), ("only-matching", 'o'), ("with-filename", 'H'), ("no-filename", 'h'),
    ("max-count", 'm'), ("after-context", 'A'), ("before-context", 'B'), ("context", 'C'),
    ("text", 'a'), ("color", '\x01'), ("colour", '\x01'), ("line-buffered", 'U')]

/-- Show the lines of files in which a pattern is found. -/
def grep : Tool := fun c =>
  let usage : Octets :=
    "Usage: ".toList ++ c.name ++ " [OPTION]... PATTERNS [FILE]...\nTry '".toList ++ c.name ++
      " --help' for more information.\n".toList
  let misused : Report := ⟨2, [(true, usage)], c.input, c.folder⟩
  match Given.read true "EFGPivwxclLqsnohHaUyrRzZb\x01".toList "efmABC".toList longOptions
      (c.args.length + 1) c.args with
  | .error e => ⟨2, [(true, c.complaint e ++ usage)], c.input, c.folder⟩
  | .ok (given, operands) =>
    let o : Options := ⟨given⟩
    let named := given.filterMap fun (l, v) => if l = 'e' then some v else none
    let fromFiles := given.filterMap fun (l, v) =>
      if l = 'f' then some (c.read v) else none
    let loaded : List Octets := fromFiles.filterMap fun
      | .ok s => some (Octets.trimEnd (· = '\n') s)
      | .error _ => none
    let (patterns, names) :=
      if named = [] ∧ fromFiles.isEmpty then (operands.take 1, operands.drop 1)
      else (named ++ loaded, operands)
    if patterns = [] ∧ loaded.isEmpty then misused
    else
      let isExtended := (o.last? "EGFP").any fun (l, _) => l = 'E' ∨ l = 'P'
      match pattern o isExtended (Octets.joined ['\n'] patterns) with
      | .error e => c.refuse 2 e.message.toList
      | .ok r =>
        let number (l : Char) : Option Nat := (o.value? l).bind Copying.count?
        let both := (number 'C').getD 0
        let limit := number 'm'
        let (sources, taken) := c.sources names
        let showsName := o.has 'H' || (1 < names.length && !o.has 'h')
        let results := sources.map fun (name, s) =>
          match s with
          | .error e =>
            let text := Call.sayPlainly name e
            ((true, false), if o.has 's' then [] else [(true, c.complaint text)])
          | .ok s =>
            let name := if name = ['-'] then "(standard input)".toList else name
            let shown := if showsName ∨ o.hasAny "lL" then some name else none
            let (found, out) :=
              search o r shown limit ((number 'B').getD both) ((number 'A').getD both) s
            let (text, isBinary) := printable o s out
            let note := (true, c.complaint (name ++ ": binary file matches".toList))
            ((false, found), (false, text) :: if isBinary then [note] else [])
        let failed := results.any fun r => r.1.1
        let found := results.any fun r => r.1.2
        let status :=
          if found ∧ (o.has 'q' ∨ !failed) then 0 else if failed then 2 else 1
        ⟨status, results.flatMap Prod.snd, if taken then [] else c.input, c.folder⟩

end Provenance.Shell.Search

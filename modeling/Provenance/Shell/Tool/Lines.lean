import Provenance.Shell.Tool.Copying
import Provenance.Shell.Tool.Regex

/-!
# Tools that work on lines

Counting, ordering and cutting lines, and putting lines together.
-/

namespace Provenance.Shell.Lines

open Copying

def written (lines : List Octets) : Octets := lines.flatMap (· ++ ['\n'])

def linesOf (sources : List (Octets × Octets)) : List Octets :=
  sources.flatMap fun (_, s) => Octets.lines s

/-- The digits at the beginning as a number. -/
def natural (s : Octets) : Nat :=
  (s.takeWhile Char.isDigit).foldl (fun n d => n * 10 + (Text.digit? d).getD 0) 0

/-- A file that cannot be opened, as some tools put it. -/
def sayOpen (name : Octets) (e : OsError) : Octets :=
  "cannot read: ".toList ++ Call.named name ++ ": ".toList ++ e.reason.toList

/-! ## Counting -/

/-- Number of words in a text. -/
def words (s : Octets) : Nat :=
  let isSpace (c : Char) : Bool := c = ' ' || ('\t' ≤ c && c ≤ '\r')
  let step : Nat × Bool → Char → Nat × Bool
    | (n, inWord), c => if isSpace c then (n, false) else (if inWord then n else n + 1, true)
  (s.foldl step (0, false)).1

/-- Number of characters in a text; bytes that encode none do not count. -/
def characters (s : Octets) : Nat := (Regex.decode s).countP Regex.isProper

/-- Number of columns of the longest line. -/
def longest (s : Octets) : Nat :=
  let width (l : Octets) : Nat :=
    (Regex.decode l).foldl (fun n c =>
      if c = '\t' then (n / 8 + 1) * 8
      else if (' ' ≤ c ∧ c ≤ '~') ∨ ('\xa0' ≤ c ∧ Regex.isProper c) then n + 1 else n) 0
  ((Octets.lines s).map width).foldl max 0

/-- What is counted, in the order in which it is shown. -/
def counts (o : Options) (s : Octets) : List Nat :=
  let all := !o.hasAny "clmwL"
  (if all ∨ o.has 'l' then [s.count '\n'] else []) ++
    (if all ∨ o.has 'w' then [words s] else []) ++
    (if o.has 'm' then [characters s] else []) ++
    (if all ∨ o.has 'c' then [s.length] else []) ++
    (if o.has 'L' then [longest s] else [])

/-- Count lines, words and bytes. -/
def wc : Tool := fun c =>
  let long := [("bytes", 'c'), ("chars", 'm'), ("lines", 'l'), ("words", 'w'),
    ("max-line-length", 'L')]
  c.withOptions "clmwL" "" long 1 fun o names =>
    let (sources, taken) := c.sources names
    let shown := sources.map fun (name, s) =>
      match s with
      | .ok s => (name, some (counts o s), none)
      | .error .isDirectory =>
        (name, some (counts o []), some (Call.sayPlainly name .isDirectory))
      | .error e => (name, none, some (Call.sayPlainly name e))
    let single := (counts o []).length = 1
    let total := (sources.filterMap fun (_, s) => s.toOption.map List.length).foldl (· + ·) 0
    let onlyFiles := (names ≠ [] ∨ c.inputIsFile) ∧ (!taken ∨ c.inputIsFile) ∧
      sources.all fun (_, s) => s.toOption.isSome
    let width :=
      if sources.length = 1 ∧ single then 1
      else if onlyFiles then (Text.decimal total).length
      else max 7 (Text.decimal total).length
    let row (ns : List Nat) (name : Octets) : Octets :=
      Octets.joined [' '] (ns.map (padded width)) ++
        (if names = [] then [] else ' ' :: name) ++ ['\n']
    let rows := shown.flatMap fun (name, ns, complaint) =>
      (complaint.elim [] fun t => [(true, c.complaint t)]) ++
        (ns.elim [] fun ns => [(false, row ns name)])
    let sums := (shown.filterMap fun (_, ns, _) => ns).foldl
      (fun a b => a.zipWith (· + ·) b) ((counts o []).map fun _ => 0)
    let last := if 1 < sources.length then [(false, row sums "total".toList)] else []
    ⟨if shown.all fun (_, _, e) => e.isNone then 0 else 1, rows ++ last,
      if taken then [] else c.input, c.folder⟩

/-! ## Order -/

/-- A place in a line: a field and a character in it, both counted from one. -/
structure Place where
  field : Nat
  character : Nat
  skipsBlanks : Bool

/-- The part of a line by which it is ordered, and how. -/
structure Key where
  start : Place
  stop : Option Place
  letters : Octets

/-- Read a place and the letters behind it. -/
def place (first : Nat) (s : Octets) : Place × Octets × Octets :=
  let (field, rest) := s.span Char.isDigit
  let (character, rest) := match rest with
    | '.' :: rest =>
      let (ds, rest) := rest.span Char.isDigit
      (natural ds, rest)
    | rest => (first, rest)
  let (letters, rest) := rest.span Char.isAlpha
  (⟨natural field, character, letters.contains 'b'⟩, letters, rest)

/-- Read a key. -/
def key (s : Octets) : Key :=
  let (start, letters, rest) := place 1 s
  match rest with
  | ',' :: rest =>
    let (stop, more, _) := place 0 rest
    ⟨start, some stop, letters ++ more⟩
  | _ => ⟨start, none, letters⟩

/-- The index in a line at which a field begins, where fields are counted from zero. Without a
separator a field begins with the blanks before it. -/
def fieldStart (separator : Option Char) (l : Octets) : Nat → Nat
  | 0 => 0
  | n + 1 =>
    let start := fieldStart separator l n
    match separator with
    | some c =>
      let body := (l.drop start).takeWhile (· ≠ c)
      min l.length (start + body.length + 1)
    | none =>
      let isBlank (c : Char) : Bool := c = ' ' || c = '\t'
      let rest := l.drop start
      let blanks := rest.takeWhile isBlank
      let body := (rest.drop blanks.length).takeWhile (!isBlank ·)
      start + blanks.length + body.length

/-- The part of a line that a key names. -/
def Key.part (k : Key) (separator : Option Char) (blanks : Bool) (l : Octets) : Octets :=
  let skip (here : Bool) (i : Nat) : Nat :=
    if here ∨ blanks then
      i + ((l.drop i).takeWhile fun c => c = ' ' ∨ c = '\t').length
    else i
  let start := skip k.start.skipsBlanks (fieldStart separator l (k.start.field - 1))
  let start := start + (k.start.character - 1)
  match k.stop with
  | none => l.drop start
  | some p =>
    let stop :=
      if p.character = 0 then
        let next := fieldStart separator l p.field
        if separator.isSome ∧ next < l.length then next - 1
        else if separator.isSome ∧ l.getLast? = separator ∧ next = l.length ∧
          (l.count (separator.getD ' ')) ≥ p.field then next - 1 else next
      else skip p.skipsBlanks (fieldStart separator l (p.field - 1)) + p.character
    (l.take stop).drop start

/-- A number at the beginning of a text: its sign, its digits before the point without zeros at
the front, and those behind it. -/
def numeric (s : Octets) : Bool × Octets × Octets :=
  let s := s.dropWhile fun c => c = ' ' ∨ c = '\t'
  let (negative, s) := match s with
    | '-' :: rest => (true, rest)
    | s => (false, s)
  let (whole, rest) := s.span Char.isDigit
  let part := match rest with
    | '.' :: rest => rest.takeWhile Char.isDigit
    | _ => []
  let whole := whole.dropWhile (· = '0')
  let part := Octets.trimEnd (· = '0') part
  (negative && (whole ≠ [] || part ≠ []), whole, part)

/-- Compare two numbers without signs. -/
def compareDigits (a b : Octets × Octets) : Ordering :=
  (compare a.1.length b.1.length).then ((compare a.1 b.1).then (compare a.2 b.2))

/-- Compare the numbers at the beginning of two texts. -/
def compareNumbers (a b : Octets) : Ordering :=
  let (m, a) := numeric a
  let (n, b) := numeric b
  match m, n with
  | false, false => compareDigits a b
  | true, true => compareDigits b a
  | true, false => .lt
  | false, true => .gt

/-- Compare two parts of lines. -/
def compareParts (letters : Octets) (a b : Octets) : Ordering :=
  let r :=
    if letters.any "ngh".toList.contains then compareNumbers a b
    else
      let keep (s : Octets) : Octets :=
        let s :=
          if letters.contains 'd' then s.filter fun c => c.isAlphanum ∨ c = ' ' ∨ c = '\t' else s
        if letters.contains 'f' then s.map Char.toUpper else s
      compare (keep a) (keep b)
  if letters.contains 'r' then r.swap else r

/-- Compare two lines by keys, and as a whole where they agree. -/
def compareLines (keys : List (Key × Octets)) (separator : Option Char) (last : Bool)
    (reversed blanks : Bool) (a b : Octets) : Ordering :=
  let byKeys := keys.foldl (fun r (k, letters) =>
    r.then (compareParts letters (k.part separator (blanks && k.letters = []) a)
      (k.part separator (blanks && k.letters = []) b))) .eq
  if last then byKeys.then (if reversed then compare b a else compare a b) else byKeys

/-- Leave out lines that agree with the one before. -/
def dedup (agree : Octets → Octets → Bool) (lines : List Octets) : List Octets :=
  let step : List Octets → Octets → List Octets
    | last :: done, l => if agree last l then last :: done else l :: last :: done
    | [], l => [l]
  (lines.foldl step []).reverse

/-- Order lines. -/
def sort : Tool := fun c =>
  let long := [("numeric-sort", 'n'), ("reverse", 'r'), ("unique", 'u'), ("key", 'k'),
    ("field-separator", 't'), ("ignore-case", 'f'), ("ignore-leading-blanks", 'b'),
    ("stable", 's'), ("check", 'c'), ("output", 'o'), ("dictionary-order", 'd'), ("merge", 'm'),
    ("general-numeric-sort", 'g'), ("human-numeric-sort", 'h')]
  c.withOptions "bdfghimnrsucCVz" "ktoST" long 2 fun o names =>
    let letters := (o.given.map Prod.fst).filter "bdfghinr".toList.contains
    let given := o.given.filterMap fun (l, v) => if l = 'k' then some (key v) else none
    let keys : List (Key × Octets) :=
      if given.isEmpty then
        [(⟨⟨1, 1, letters.contains 'b'⟩, none, letters⟩, letters)]
      else
        given.map fun k => (k, if k.letters = [] then letters else k.letters)
    let separator := (o.value? 't').bind fun v =>
      if v = "\\0".toList then some '\x00' else v.head?
    let whole := !o.hasAny "su"
    let order (last : Bool) : Octets → Octets → Ordering :=
      compareLines keys separator last (o.has 'r') (o.has 'b')
    let (sources, taken) := c.sources names
    let failed := sources.find? fun (_, s) => s.toOption.isNone
    match failed with
    | some (name, .error e) =>
      ⟨2, [(true, c.complaint (match e with
        | .isDirectory => "read failed: ".toList ++ Call.named name ++ ": Is a directory".toList
        | e => sayOpen name e))], c.input, c.folder⟩
    | _ =>
      let lines := linesOf (sources.filterMap fun (n, s) => s.toOption.map (n, ·))
      let rest := if taken then [] else c.input
      if o.hasAny "cC" then
        let bad := (lines.zip (lines.drop 1)).zipIdx.find? fun ((a, b), _) =>
          let r := order whole a b
          r = .gt || (o.has 'u' && r = .eq)
        match bad with
        | none => ⟨0, [], rest, c.folder⟩
        | some ((_, b), i) =>
          let name := (names.head?).getD ['-']
          let text := name ++ [':'] ++ Text.decimal (i + 2) ++ ": disorder: ".toList ++ b
          ⟨1, if o.has 'C' then [] else [(true, c.complaint text)], rest, c.folder⟩
      else
        let sorted := lines.mergeSort fun a b => order whole a b != .gt
        let sorted := if o.has 'u' then dedup (fun a b => order false a b = .eq) sorted else sorted
        match o.value? 'o' with
        | none => ⟨0, [(false, written sorted)], rest, c.folder⟩
        | some path =>
          match c.folder.forWriting c.place path.toText with
          | .ok (.inr p) => ⟨0, [], rest, c.folder.put p (written sorted).toBytes⟩
          | .ok (.inl _) => ⟨0, [], rest, c.folder⟩
          | .error e =>
            ⟨2, [(true, c.complaint ("open failed: ".toList ++ Call.sayPlainly path e))], rest,
              c.folder⟩

/-- Leave out, count or choose lines that are repeated. -/
def uniq : Tool := fun c =>
  let long := [("count", 'c'), ("repeated", 'd'), ("unique", 'u'), ("ignore-case", 'i'),
    ("skip-fields", 'f'), ("skip-chars", 's'), ("check-chars", 'w')]
  c.withOptions "cduiz" "fsw" long 1 fun o names =>
    let isBlank (c : Char) : Bool := c = ' ' || c = '\t'
    let skipField (l : Octets) : Octets := (l.dropWhile isBlank).dropWhile (!isBlank ·)
    let number (l : Char) : Nat := ((o.value? l).map natural).getD 0
    let view (l : Octets) : Octets :=
      let l := (List.range (number 'f')).foldl (fun l _ => skipField l) l
      let l := l.drop (number 's')
      let l := if o.has 'w' then l.take (number 'w') else l
      if o.has 'i' then l.map Char.toLower else l
    let step : List (Octets × Nat) → Octets → List (Octets × Nat)
      | (last, n) :: done, l => if view last = view l then (last, n + 1) :: done
        else (l, 1) :: (last, n) :: done
      | [], l => [(l, 1)]
    let make (sources : List (Octets × Octets)) : Octets :=
      let groups := ((linesOf sources).foldl step []).reverse
      let chosen := groups.filter fun (_, n) =>
        (!o.has 'd' || 1 < n) && (!o.has 'u' || n = 1)
      written (chosen.map fun (l, n) => if o.has 'c' then padded 7 n ++ ' ' :: l else l)
    let r := c.gather (names.take 1) 1 Call.sayPlainly make
    match names with
    | [_, target] =>
      match c.folder.forWriting c.place target.toText with
      | .ok (.inr p) =>
        let out := r.writes.flatMap fun (isComplaint, s) => if isComplaint then [] else s
        { r with writes := r.writes.filter Prod.fst, folder := c.folder.put p (Octets.toBytes out) }
      | _ => r
    | _ => r

/-- Show which lines of two ordered files are in both. -/
def commonLines : Nat → List Octets → List Octets → List (Nat × Octets)
  | 0, _, _ => []
  | _ + 1, [], bs => bs.map (2, ·)
  | _ + 1, as, [] => as.map (1, ·)
  | fuel + 1, a :: as, b :: bs =>
    if a = b then (3, a) :: commonLines fuel as bs
    else if a < b then (1, a) :: commonLines fuel as (b :: bs)
    else (2, b) :: commonLines fuel (a :: as) bs

/-- Compare two ordered files line by line. -/
def comm : Tool := fun c =>
  c.withOptions "123z" "" [] 1 fun o names =>
    match names with
    | [left, right] =>
      c.gather [left, right] 1 Call.sayPlainly fun sources =>
        match sources.map fun (_, s) => Octets.lines s with
        | [as, bs] =>
          let shown (n : Nat) : Bool := !o.has (Char.ofNat ('0'.toNat + n))
          ((commonLines (as.length + bs.length + 1) as bs).filter fun (n, _) => shown n).flatMap
            fun (n, l) =>
              let tabs := ((List.range n).drop 1).countP shown
              List.replicate tabs '\t' ++ l ++ ['\n']
        | _ => []
    | [] => c.refuseUsage 1 "missing operand".toList
    | [one] => c.refuseUsage 1 ("missing operand after ".toList ++ Call.curly one)
    | _ :: _ :: extra :: _ => c.refuseUsage 1 ("extra operand ".toList ++ Call.curly extra)

/-! ## Parts of lines -/

/-- Ranges of numbers, from one on; the second one may be open. -/
abbrev Ranges := List (Nat × Option Nat)

/-- A number is in one of the ranges. -/
def Ranges.has (rs : Ranges) (n : Nat) : Bool := rs.any fun (a, b) => a ≤ n && b.all (n ≤ ·)

def ranges (s : Octets) : Except Octets Ranges :=
  (Octets.splitAt ',' s).mapM fun part =>
    let (first, rest) := part.span Char.isDigit
    match rest with
    | [] =>
      if first = [] then .error []
      else if natural first = 0 then .error "0".toList
      else .ok (natural first, some (natural first))
    | '-' :: last =>
      if !last.all Char.isDigit then .error last
      else if first = [] ∧ last = [] then .error ['-']
      else
        let a := if first = [] then 1 else natural first
        if a = 0 then .error "0".toList
        else if last = [] then .ok (a, none)
        else if natural last < a then .error "<".toList
        else .ok (a, some (natural last))
    | rest => .error rest

/-- Cut parts out of lines. -/
def cut : Tool := fun c =>
  let long := [("bytes", 'b'), ("characters", 'c'), ("fields", 'f'), ("delimiter", 'd'),
    ("only-delimited", 's'), ("output-delimiter", '\x02'), ("complement", '\x01')]
  c.withOptions "nsz\x01" "bcfd\x02" long 1 fun o names =>
    match o.last? "bcf" with
    | none => c.refuseUsage 1 "you must specify a list of bytes, characters, or fields".toList
    | some (kind, list) =>
      let byField := kind = 'f'
      let separator := (o.value? 'd').getD ['\t']
      if (o.given.filter fun (l, _) => "bcf".toList.contains l).length ≠ 1 then
        c.refuseUsage 1 "only one list may be specified".toList
      else if 1 < separator.length then
        c.refuseUsage 1 "the delimiter must be a single character".toList
      else if o.has 'd' ∧ !byField then
        c.refuseUsage 1 "an input delimiter may be specified only when operating on fields".toList
      else
        match ranges list with
        | .error text =>
          c.refuseUsage 1
            (if text = ['0'] then
              (if byField then "fields are numbered from 1"
                else "byte/character positions are numbered from 1").toList
            else if text = ['<'] then "invalid decreasing range".toList
            else if text = ['-'] then "invalid range with no endpoint: -".toList
            else
              (if byField then "invalid field value "
                else "invalid byte/character position ").toList ++ Call.curly text)
        | .ok rs =>
          let chosen (i : Nat) : Bool := rs.has (i + 1) != o.has '\x01'
          let d := separator.head?.getD '\x00'
          let between := (o.value? '\x02').getD separator
          let one (l : Octets) : List Octets :=
            if byField then
              let fields := Octets.splitAt d l
              if fields.length ≤ 1 then if o.has 's' then [] else [l]
              else
                [Octets.joined between
                  ((fields.zipIdx.filter fun (_, i) => chosen i).map Prod.fst)]
            else [(l.zipIdx.filter fun (_, i) => chosen i).map Prod.fst]
          c.gather names 1 Call.sayPlainly fun sources => written ((linesOf sources).flatMap one)

/-- Cut a line into pieces of a width, at blanks if this is asked for. -/
def foldLine (width : Nat) (atBlanks : Bool) : Nat → Octets → List Octets
  | 0, l => [l]
  | fuel + 1, l =>
    if l.length ≤ width then [l]
    else
      let piece := l.take width
      let cutAt := if atBlanks ∧ piece.contains ' ' then
          width - (piece.reverse.takeWhile (· ≠ ' ')).length
        else width
      l.take cutAt :: foldLine width atBlanks fuel (l.drop cutAt)

/-- Cut long lines. -/
def fold : Tool := fun c =>
  c.withOptions "bs" "w" [("width", 'w'), ("spaces", 's'), ("bytes", 'b')] 1 fun o names =>
    let width := max 1 (((o.value? 'w').map natural).getD 80)
    c.gather names 1 Call.sayPlainly fun sources =>
      sources.flatMap fun (_, s) =>
        (completeLines s).flatMap fun (l, complete) =>
          Octets.joined ['\n'] (foldLine width (o.has 's') (l.length + 1) l) ++
            (if complete then ['\n'] else [])

/-- Number lines. -/
def nl : Tool := fun c =>
  let long := [("body-numbering", 'b'), ("number-width", 'w'), ("number-separator", 's'),
    ("starting-line-number", 'v'), ("line-increment", 'i'), ("number-format", 'n')]
  c.withOptions "p" "bwsvinhfdl" long 1 fun o names =>
    let style := (o.value? 'b').getD ['t']
    let width := ((o.value? 'w').map natural).getD 6
    let separator := (o.value? 's').getD ['\t']
    let first := ((o.value? 'v').map natural).getD 1
    let increment := ((o.value? 'i').map natural).getD 1
    let format := (o.value? 'n').getD ['r', 'n']
    let shown (n : Nat) : Octets :=
      let d := Text.decimal n
      if format = ['l', 'n'] then d.rightpad width ' '
      else if format = ['r', 'z'] then d.leftpad width '0'
      else d.leftpad width ' '
    c.gather names 1 Call.sayPlainly fun sources =>
      let step : List Octets × Nat → Octets → List Octets × Nat
        | (done, n), l =>
          if style = ['a'] ∨ (style = ['t'] ∧ l ≠ []) then
            ((shown n ++ separator ++ l) :: done, n + increment)
          else ((List.replicate (width + separator.length) ' ' ++ l) :: done, n)
      written ((linesOf sources).foldl step ([], first)).1.reverse

/-- Read the separators that lines are put together with. -/
def separatorsOf : Octets → List Octets
  | '\\' :: c :: rest =>
    (match c with
      | 'n' => ['\n']
      | 't' => ['\t']
      | '0' => []
      | c => [c]) :: separatorsOf rest
  | c :: rest => [c] :: separatorsOf rest
  | [] => []

/-- Put pieces together with separators that are used in turn. -/
def joinWith (separators : List Octets) (pieces : List Octets) : Octets :=
  pieces.zipIdx.flatMap fun (p, i) =>
    if i = 0 then p else (separators[(i - 1) % max 1 separators.length]?).getD [] ++ p

/-- Put lines of several files together. -/
def paste : Tool := fun c =>
  c.withOptions "sz" "d" [("serial", 's'), ("delimiters", 'd')] 1 fun o names =>
    let separators := separatorsOf ((o.value? 'd').getD ['\t'])
    let names := if names = [] then [['-']] else names
    let dashes := names.countP (· = ['-'])
    let (sources, taken) := c.sources (names.filter (· ≠ ['-']))
    let sources := if dashes = names.length then [] else sources
    match sources.find? fun (_, s) => s.toOption.isNone with
    | some (name, .error e) => c.refuse 1 (Call.sayPlainly name e)
    | _ =>
      let own := Octets.lines c.input
      let step : List (List Octets) × Nat → Octets → List (List Octets) × Nat
        | (done, k), name =>
          if name = ['-'] then
            let lines := if o.has 's' then (if k = 0 then own else [])
              else (own.zipIdx.filter fun (_, i) => i % dashes = k).map Prod.fst
            (lines :: done, k + 1)
          else
            let s := ((sources.lookup name).bind Except.toOption).getD []
            (Octets.lines s :: done, k)
      let columns := (names.foldl step ([], 0)).1.reverse
      let out :=
        if o.has 's' then columns.map (joinWith separators)
        else
          let height := (columns.map List.length).foldl max 0
          (List.range height).map fun i =>
            joinWith separators (columns.map fun lines => (lines[i]?).getD [])
      ⟨0, [(false, written out)], if taken ∨ 0 < dashes then [] else c.input, c.folder⟩

/-- Put the number of a piece into letters. -/
def pieceName (n : Nat) : Octets :=
  [Char.ofNat ('a'.toNat + n / 26 % 26), Char.ofNat ('a'.toNat + n % 26)]

/-- Cut a list into pieces of a length, at most `fuel` of them. -/
def chunks {α : Type} (n : Nat) : Nat → List α → List (List α)
  | 0, _ => []
  | _ + 1, [] => []
  | fuel + 1, l => l.take n :: chunks n fuel (l.drop n)

/-- Cut a file into several ones. -/
def split : Tool := fun c =>
  c.withOptions "dx" "lba" [("lines", 'l'), ("bytes", 'b')] 1 fun o names =>
    let (sources, taken) := c.sources (names.take 1)
    match sources with
    | (name, .error e) :: _ =>
      c.refuse 1 ("cannot open ".toList ++ Call.quoted name ++ " for reading: ".toList ++
        e.reason.toList)
    | (_, .ok s) :: _ =>
      let start := (names[1]?).getD ['x']
      let pieces := match o.value? 'b' with
        | some n => chunks (max 1 ((count? n).getD 1)) (s.length + 1) s
        | none =>
          (chunks (max 1 (((o.value? 'l').map natural).getD 1000)) (s.length + 1)
            (wholeLines s)).map List.flatten
      let folder := pieces.zipIdx.foldl (fun (f : Folder) (p, i) =>
        match f.forWriting c.place (Octets.toText (start ++ pieceName i)) with
        | .ok (.inr path) => f.put path (Octets.toBytes p)
        | _ => f) c.folder
      ⟨0, [], if taken then [] else c.input, folder⟩
    | [] => c.report 0 []

end Provenance.Shell.Lines

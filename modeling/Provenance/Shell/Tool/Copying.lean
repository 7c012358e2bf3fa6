import Provenance.Shell.Tool.Call
import Provenance.Text.Decimal

/-!
# Tools that copy

Files or the input are written as they are, in part, in another order, or with what cannot be
seen made visible.
-/

namespace Provenance.Shell.Copying

/-- Number of bytes that are read at once from a pipe. -/
def blockSize : Nat := 8192

/-- What is left of the input of a tool that has used all of it but a rest: from a pipe whole
blocks are taken. -/
def restOf (c : Call) (rest : Octets) : Octets :=
  if c.inputIsFile then rest
  else
    let used := c.input.length - rest.length
    c.input.drop ((used + blockSize - 1) / blockSize * blockSize)

/-- A number with blanks before it. -/
def padded (width n : Nat) : Octets := (Text.decimal n).leftpad width ' '

/-! ## Whole files -/

structure Display where
  numbersAll : Bool
  numbersFilled : Bool
  squeezes : Bool
  marksEnds : Bool
  marksTabs : Bool
  marksOthers : Bool

/-- A byte as it is shown. -/
def Display.byte (d : Display) (c : Char) : Octets :=
  let low (n : Nat) : Octets :=
    if n < 32 then ['^', Char.ofNat (n + 64)] else if n = 127 then ['^', '?'] else [Char.ofNat n]
  if c = '\t' then if d.marksTabs then ['^', 'I'] else ['\t']
  else if !d.marksOthers then [c]
  else if c < '\x80' then low c.toNat
  else 'M' :: '-' :: low (c.toNat - 128)

/-- A line as it is shown. The end of a line that ends in a carriage return is shown with it. -/
def Display.line (d : Display) (complete : Bool) (s : Octets) : Octets :=
  let (body, carriage) :=
    if d.marksEnds ∧ complete ∧ s.getLast? = some '\r' ∧ !d.marksOthers then
      (s.dropLast, ['^', 'M'])
    else (s, [])
  let shown := if d.marksTabs ∨ d.marksOthers then body.flatMap d.byte else body
  shown ++ carriage ++ (if complete then (if d.marksEnds then ['$', '\n'] else ['\n']) else [])

/-- The lines of a text, each with whether it is complete. -/
def completeLines (s : Octets) : List (Octets × Bool) :=
  let step : Octets × List (Octets × Bool) → Char → Octets × List (Octets × Bool)
    | (current, done), c =>
      if c = '\n' then ([], (current.reverse, true) :: done) else (c :: current, done)
  match s.foldl step ([], []) with
  | ([], done) => done.reverse
  | (current, done) => ((current.reverse, false) :: done).reverse

/-- A text as it is shown. -/
def Display.text (d : Display) (s : Octets) : Octets :=
  let step : List Octets × Nat × Bool → Octets × Bool → List Octets × Nat × Bool
    | (done, number, afterBlank), (l, complete) =>
      let blank := l.isEmpty && complete
      if d.squeezes ∧ blank ∧ afterBlank then (done, number, true)
      else
        let counts := if d.numbersFilled then !blank else d.numbersAll
        let start := if counts then padded 6 number ++ ['\t'] else []
        ((start ++ d.line complete l) :: done, if counts then number + 1 else number, blank)
  let (done, _, _) := (completeLines s).foldl step ([], 1, false)
  done.reverse.flatten

/-- Copy the named files, or the input where none is named. -/
def cat : Tool := fun c =>
  let long := [("show-all", 'A'), ("number-nonblank", 'b'), ("show-ends", 'E'), ("number", 'n'),
    ("squeeze-blank", 's'), ("show-tabs", 'T'), ("show-nonprinting", 'v')]
  c.withOptions "AbeEnstTuv" "" long 1 fun o names =>
    let d : Display :=
      ⟨o.has 'n', o.has 'b', o.has 's', o.hasAny "AeE", o.hasAny "AtT", o.hasAny "Aetv"⟩
    let r := c.gather names 1 Call.sayPlainly fun sources =>
      let s := sources.flatMap Prod.snd
      if o.hasAny "AbeEnstTv" then d.text s else s
    if c.inputIsOpen ∨ (names ≠ [] ∧ !names.contains ['-']) then r
    else
      let closing := "closing standard input: ".toList ++ OsError.badStream.reason.toList
      { r with status := 1, writes := r.writes ++ [(true, c.complaint closing)] }

/-- Copy the input to the output and to files. -/
def tee : Tool := fun c =>
  c.withOptions "aip" "" [("append", 'a'), ("ignore-interrupts", 'i')] 1 fun o names =>
    let step : Folder × List (Bool × Octets) → Octets → Folder × List (Bool × Octets)
      | (folder, writes), name =>
        match folder.forWriting c.place name.toText with
        | .ok (.inr path) =>
          let before := if o.has 'a' then (folder.lookup? path).getD [] else []
          (folder.put path (before ++ c.input.toBytes), writes)
        | .ok (.inl (.stream 1)) => (folder, writes ++ [(false, c.input)])
        | .ok (.inl (.stream 2)) => (folder, writes ++ [(true, c.input)])
        | .ok (.inl .full) =>
          (folder, writes ++ [(true, c.complaint (Call.sayPlainly name .noSpace))])
        | .ok (.inl _) => (folder, writes)
        | .error e => (folder, writes ++ [(true, c.complaint (Call.sayPlainly name e))])
    let (folder, writes) := names.foldl step (c.folder, [(false, c.input)])
    let failed := writes.any Prod.fst && !names.contains "/dev/stderr".toList
    ⟨if failed then 1 else 0, writes, [], folder⟩

/-- Copy lines in reverse order. -/
def tac : Tool := fun c =>
  c.withOptions "b" "s" [] 1 fun _ names =>
    let say (name : Octets) (e : OsError) : Octets :=
      "failed to open ".toList ++ Call.quoted name ++ " for reading: ".toList ++ e.reason.toList
    c.gather names 1 say fun sources =>
      sources.flatMap fun (_, s) =>
        (completeLines s).reverse.flatMap fun (l, complete) =>
          if complete then l ++ ['\n'] else l

/-- Copy lines with their characters in reverse order. -/
def rev : Tool := fun c =>
  c.withOptions "" "" [] 1 fun _ names =>
    let say (name : Octets) (e : OsError) : Octets :=
      "cannot open ".toList ++ name ++ ": ".toList ++ e.reason.toList
    c.gather names 1 say fun sources =>
      (sources.flatMap Prod.snd |> completeLines).flatMap fun (l, complete) =>
        let text := Octets.ofText (String.ofList (Octets.toText l).toList.reverse)
        if complete then text ++ ['\n'] else text

/-- Repeat a line without end, of which a part is kept. -/
def yes : Tool := fun c =>
  let line := (if c.args = [] then ['y'] else Octets.joined [' '] c.args) ++ ['\n']
  c.report 0 (List.replicate (Octets.endless / line.length + 1) line).flatten

/-! ## Parts of files -/

/-- What part of a file is meant. -/
structure Part where
  /-- Bytes are counted, not lines. -/
  bytes : Bool
  count : Nat
  /-- The count is from the other end. -/
  fromOther : Bool

/-- The factor that a letter behind a number stands for. -/
def factor? (suffix : String) : Option Nat :=
  match suffix with
  | "" => some 1
  | "b" => some 512
  | "K" | "KiB" | "k" => some 1024
  | "kB" | "KB" => some 1000
  | "M" | "MiB" | "m" => some (1024 * 1024)
  | "MB" => some (1000 * 1000)
  | "G" | "GiB" => some (1024 * 1024 * 1024)
  | _ => none

/-- Read a count with its factor. -/
def count? (s : Octets) : Option Nat :=
  let (digits, suffix) := s.span Char.isDigit
  if digits = [] then none
  else
    ((digits.foldl (fun n d => n * 10 + (Text.digit? d).getD 0) 0) * ·) <$>
      factor? (String.ofList suffix)

/-- The lines of a text with their ends. -/
def wholeLines (s : Octets) : List Octets :=
  (completeLines s).map fun (l, complete) => if complete then l ++ ['\n'] else l

/-- The first part of a text. -/
def Part.first (p : Part) (s : Octets) : Octets :=
  if p.bytes then if p.fromOther then s.take (s.length - p.count) else s.take p.count
  else
    let lines := wholeLines s
    (if p.fromOther then lines.take (lines.length - p.count) else lines.take p.count).flatten

/-- The last part of a text; from the other end, the part from a line or byte on. -/
def Part.last (p : Part) (s : Octets) : Octets :=
  if p.bytes then
    if p.fromOther then s.drop (p.count - 1) else s.drop (s.length - p.count)
  else
    let lines := wholeLines s
    (if p.fromOther then lines.drop (p.count - 1) else lines.drop (lines.length - p.count)).flatten

/-- Turn a first argument such as `-3` into `-n3`. -/
def expandCount (args : List Octets) : List Octets :=
  match args with
  | ('-' :: d :: rest) :: more =>
    if d.isDigit then ('-' :: 'n' :: d :: rest) :: more else args
  | args => args

/-- Show the parts of several texts under their names. -/
def withHeaders (shown : Bool) (parts : List (Octets × Octets)) : Octets :=
  let blocks := parts.map fun (name, s) =>
    let name := if name = ['-'] then "standard input".toList else name
    (if shown then "==> ".toList ++ name ++ " <==\n".toList else []) ++ s
  if shown then Octets.joined ['\n'] blocks else blocks.flatten

/-- Show a part of each file. -/
def partly (isOther : Char) (cut : Part → Octets → Octets) (rest : Part → Octets → Octets) : Tool :=
  fun c =>
    let long := [("lines", 'n'), ("bytes", 'c'), ("quiet", 'q'), ("silent", 'q'), ("verbose", 'v')]
    ({ c with args := expandCount c.args }).withOptions "qvz" "nc" long 1 fun o names =>
      let chosen := (o.last? "nc").getD ('n', ['1', '0'])
      let bytes := chosen.1 = 'c'
      let (fromOther, digits) := match chosen.2 with
        | sign :: rest => if sign = isOther then (true, rest)
          else if sign = '-' ∨ sign = '+' then (false, rest) else (false, sign :: rest)
        | [] => (false, [])
      match count? digits with
      | none =>
        c.refuse 1 ("invalid number of ".toList ++ (if bytes then "bytes" else "lines").toList ++
          ": ".toList ++ Call.curly chosen.2)
      | some n =>
        let p : Part := ⟨bytes, n, fromOther⟩
        let shown := o.has 'v' || (1 < names.length && !o.has 'q')
        let say (name : Octets) (e : OsError) : Octets :=
          match e with
          | .isDirectory => "error reading ".toList ++ Call.quoted name ++ ": Is a directory".toList
          | e =>
            "cannot open ".toList ++ Call.quoted name ++ " for reading: ".toList ++ e.reason.toList
        let r := c.gather names 1 say fun sources =>
          withHeaders shown (sources.map fun (name, s) => (name, cut p s))
        { r with rest := if (c.sources names).2 then rest p c.input else c.input }

/-- Show the first lines or bytes. -/
def head : Tool := fun c =>
  partly '-' Part.first
    (fun p s =>
      let kept := s.drop (p.first s).length
      if p.fromOther then [] else if p.bytes then kept else restOf c kept) c

/-- Show the last lines or bytes. -/
def tail : Tool := partly '+' Part.last fun _ _ => []

end Provenance.Shell.Copying

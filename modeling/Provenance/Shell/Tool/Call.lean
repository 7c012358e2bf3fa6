import Provenance.Folder
import Provenance.Shell.Octets

/-!
# Tools

The small programs that scripts are made of. A tool is called with arguments and finds input,
files and an environment; it reports a status, what it wrote, the input that it left unread and
the files as they are then.
-/

namespace Provenance.Shell

/-- What a tool finds when it is called. -/
structure Call where
  name : Octets
  args : List Octets
  input : Octets
  environment : List (Octets × Octets)
  folder : Folder
  place : Directory
  /-- The input is a file, so that what is not used can be given back. -/
  inputIsFile : Bool
  /-- The input can be read at all. -/
  inputIsOpen : Bool

/-- What a tool leaves behind. What it wrote is kept in order, with whether it is a complaint. -/
structure Report where
  status : Nat
  writes : List (Bool × Octets)
  rest : Octets
  folder : Folder

abbrev Tool := Call → Report

namespace Call

/-- The report of a tool that wrote some output and did nothing else. -/
def report (c : Call) (status : Nat) (out : Octets) : Report :=
  ⟨status, [(false, out)], c.input, c.folder⟩

/-- The report of a tool that has read all its input. -/
def consumed (c : Call) (status : Nat) (out : Octets) : Report :=
  ⟨status, [(false, out)], [], c.folder⟩

/-- A complaint as it is written. -/
def complaint (c : Call) (text : Octets) : Octets := c.name ++ ": ".toList ++ text ++ ['\n']

/-- The report of a tool that gives up with a complaint. -/
def refuse (c : Call) (status : Nat) (text : Octets) : Report :=
  ⟨status, [(true, c.complaint text)], c.input, c.folder⟩

/-- The hint that follows a complaint about options. -/
def hint (c : Call) : Octets :=
  "\nTry '".toList ++ c.name ++ " --help' for more information.".toList

/-- The report of a tool that cannot understand its arguments. -/
def refuseUsage (c : Call) (status : Nat) (text : Octets) : Report :=
  c.refuse status (text ++ c.hint)

/-- Read a file or, by its name among the devices, the input. -/
def read (c : Call) (path : Octets) : Except OsError Octets :=
  match c.folder.resolveFrom c.place path.toText with
  | .ok (.file _ contents) => .ok (Octets.ofBytes contents)
  | .ok (.device (.stream 0)) => .ok c.input
  | .ok (.device .zero) | .ok (.device .full) =>
    .ok (List.replicate Octets.endless '\x00')
  | .ok (.device _) => .ok []
  | .ok (.directory _) => .error .isDirectory
  | .ok (.vacant _) => .error .noEntry
  | .error e => .error e

/-- The contents of the named files, where a dash names the input, or of the input where none is
named; and whether the input was among them. What cannot be read is an error. -/
def sources (c : Call) (names : List Octets) :
    List (Octets × Except OsError Octets) × Bool :=
  let input (taken : Bool) : Except OsError Octets :=
    if c.inputIsOpen then .ok (if taken then [] else c.input) else .error .badStream
  match names with
  | [] => ([(['-'], input false)], true)
  | names =>
    let step : List (Octets × Except OsError Octets) × Bool → Octets →
        List (Octets × Except OsError Octets) × Bool
      | (done, taken), name =>
        if name = ['-'] ∨ name = "/dev/stdin".toList then
          ((name, input taken) :: done, true)
        else ((name, c.read name) :: done, taken)
    let (done, taken) := names.foldl step ([], false)
    (done.reverse, taken)

/-- The report of a tool that makes one output of all its sources and complains about those that
cannot be read, before it writes. -/
def gather (c : Call) (names : List Octets) (failure : Nat)
    (say : Octets → OsError → Octets) (f : List (Octets × Octets) → Octets) : Report :=
  let (sources, taken) := c.sources names
  let errors := sources.filterMap fun (name, r) =>
    match r with
    | .error e => some (true, c.complaint (say name e))
    | .ok _ => none
  let good := sources.filterMap fun (name, r) =>
    match r with
    | .error _ => none
    | .ok contents => some (name, contents)
  ⟨if errors.isEmpty then 0 else failure, errors ++ [(false, f good)],
    if taken then [] else c.input, c.folder⟩

/-- The bytes of a character show when they are printed. -/
def isShown : Octets → Bool
  | [c] => ' ' ≤ c && c ≤ '~'
  | bytes => (Text.Utf8.decode? (Octets.toBytes bytes)).any (·.all ('\xa0' ≤ ·))

/-- A byte that does not show, behind a backslash. -/
def escaped (c : Char) : Octets :=
  match if '\x07' ≤ c then "abtnvfr".toList[c.toNat - 7]? else none with
  | some l => ['\\', l]
  | none =>
    let digit (n : Nat) : Char := Char.ofNat ('0'.toNat + n % 8)
    ['\\', digit (c.toNat / 64), digit (c.toNat / 8), digit c.toNat]

/-- A text in quotes that a shell reads as one word, though some of it does not show. -/
def dollarQuoted (s : Octets) : Octets :=
  let step : Bool × Octets → Octets → Bool × Octets
    | (inside, done), bytes =>
      if isShown bytes then
        let bytes := if bytes = ['\x27'] then "'\\''".toList else bytes
        (false, done ++ (if inside then ['\x27', '\x27'] else []) ++ bytes)
      else (true, done ++ (if inside then [] else "'$'".toList) ++ bytes.flatMap escaped)
  '\x27' :: ((Octets.characters s).foldl step (false, [])).2 ++ ['\x27']

/-- A text that a shell reads as one word. It is left as it is if it holds neither a special
character nor one of the given ones. -/
def quotedForShell (special : String) (s : Octets) : Octets :=
  let isSafe (c : Char) : Bool :=
    (c.isAlphanum || "%+,-./:=@_^]".toList.contains c || '\x80' ≤ c) && !special.toList.contains c
  if s = [] then ['\x27', '\x27']
  else if !(Octets.characters s).all isShown then dollarQuoted s
  else if s.all isSafe then s
  else if s.contains '\x27' ∧ !s.any (fun c => "\"$\\!".toList.contains c || c = '\x60') then
    ['"'] ++ s ++ ['"']
  else
    ['\x27'] ++ s.flatMap (fun c => if c = '\x27' then "'\\''".toList else [c]) ++ ['\x27']

/-- The name of a file in a message. -/
def named (name : Octets) : Octets := quotedForShell ":" name

/-- A file that cannot be read, as most tools put it. -/
def sayPlainly (name : Octets) (e : OsError) : Octets :=
  named name ++ ": ".toList ++ e.reason.toList

/-- The name of a file in quotes. -/
def quoted (name : Octets) : Octets :=
  let q := quotedForShell "" name
  if q.head? = some '\x27' ∨ q.head? = some '"' then q else ['\x27'] ++ name ++ ['\x27']

/-- Put typographic quotes around a text. -/
def curly (text : Octets) : Octets :=
  let closing := Octets.ofText "’"
  let inside := (Octets.characters text).flatMap fun bytes =>
    if !isShown bytes then bytes.flatMap escaped
    else if bytes = ['\\'] ∨ bytes = closing then '\\' :: bytes
    else bytes
  Octets.ofText "‘" ++ inside ++ closing

end Call

/-- An option: its letter and its value. -/
abbrev Given := Char × Octets

namespace Given

/-- Read the letters of one argument behind its dash. `withValue` tells which letters take a
value, from the rest of the argument or the next one. -/
def readLetters (known withValue : List Char) : Octets → List Octets →
    Except Octets (List Given × List Octets)
  | [], rest => .ok ([], rest)
  | l :: ls, rest =>
    if withValue.contains l then
      if ls ≠ [] then .ok ([(l, ls)], rest)
      else
        match rest with
        | v :: rest => .ok ([(l, v)], rest)
        | [] => .error ("option requires an argument -- '".toList ++ [l, '\x27'])
    else if known.contains l then
      match readLetters known withValue ls rest with
      | .ok (given, rest) => .ok ((l, []) :: given, rest)
      | .error e => .error e
    else .error ("invalid option -- '".toList ++ [l, '\x27'])

/-- Read options and operands, which may be mixed or not. A long option stands for a letter. -/
def read (mixed : Bool) (known withValue : List Char) (long : List (String × Char)) :
    Nat → List Octets → Except Octets (List Given × List Octets)
  | 0, _ => .ok ([], [])
  | _ + 1, [] => .ok ([], [])
  | fuel + 1, arg :: rest =>
    match arg with
    | ['-', '-'] => .ok ([], rest)
    | '-' :: '-' :: name =>
      let (name, value) := name.span (· ≠ '=')
      match long.lookup (String.ofList name) with
      | none => .error ("unrecognized option '".toList ++ arg ++ ['\x27'])
      | some l =>
        match withValue.contains l, value, rest with
        | true, _ :: v, rest =>
          (read mixed known withValue long fuel rest).map fun (g, os) => ((l, v) :: g, os)
        | true, [], v :: rest =>
          (read mixed known withValue long fuel rest).map fun (g, os) => ((l, v) :: g, os)
        | true, [], [] => .error ("option '".toList ++ arg ++ "' requires an argument".toList)
        | false, _, rest =>
          (read mixed known withValue long fuel rest).map fun (g, os) => ((l, []) :: g, os)
    | '-' :: l :: ls =>
      match readLetters known withValue (l :: ls) rest with
      | .ok (given, rest) =>
        (read mixed known withValue long fuel rest).map fun (g, os) => (given ++ g, os)
      | .error e => .error e
    | arg =>
      if mixed then (read mixed known withValue long fuel rest).map fun (g, os) => (g, arg :: os)
      else .ok ([], arg :: rest)

end Given

/-- The options that a tool was given, in order. -/
structure Options where
  given : List Given

namespace Options

def has (o : Options) (letter : Char) : Bool := o.given.any fun (l, _) => l = letter

/-- The last value of an option. -/
def value? (o : Options) (letter : Char) : Option Octets :=
  (o.given.reverse.find? fun (l, _) => l = letter).map Prod.snd

/-- The last one of some options. -/
def last? (o : Options) (letters : String) : Option Given :=
  o.given.reverse.find? fun (l, _) => letters.toList.contains l

/-- One of some options was given. -/
def hasAny (o : Options) (letters : String) : Bool := (o.last? letters).isSome

end Options

/-- Carry out a tool whose options have been read. -/
def Call.withOptions (c : Call) (known withValue : String) (long : List (String × Char))
    (failure : Nat) (f : Options → List Octets → Report) : Report :=
  match Given.read true known.toList withValue.toList long (c.args.length + 1) c.args with
  | .ok (given, operands) => f ⟨given⟩ operands
  | .error e => c.refuseUsage failure e

/-- Carry out a tool whose options stand before its operands. -/
def Call.withLeading (c : Call) (known withValue : String) (long : List (String × Char))
    (failure : Nat) (f : Options → List Octets → Report) : Report :=
  match Given.read false known.toList withValue.toList long (c.args.length + 1) c.args with
  | .ok (given, operands) => f ⟨given⟩ operands
  | .error e => c.refuseUsage failure e

end Provenance.Shell

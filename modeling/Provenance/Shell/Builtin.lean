import Provenance.Shell.Fields
import Provenance.Shell.Machine
import Provenance.Shell.Tool.Condition
import Provenance.Shell.Tool.Printf

/-!
# Built-in commands

Commands that act on the shell that runs them. Each is given its arguments and leaves a status.
A complaint about arguments gives up the command; if the command is one of the special ones it
gives up the whole shell.
-/

namespace Provenance.Shell

abbrev Builtin := (args : List Octets) → Effect Nat

namespace Builtin

open Effect

/-! ## Arguments -/

/-- Read the letters of one argument behind its dash. -/
def letters (known withValue : String) : Octets → List Octets →
    Effect (List (Char × Octets) × List Octets)
  | [], rest => return ([], rest)
  | l :: ls, rest => do
    if withValue.toList.contains l then
      if ls ≠ [] then return ([(l, ls)], rest)
      else
        match rest with
        | v :: rest => return ([(l, v)], rest)
        | [] => fail ("No arg for -".toList ++ [l] ++ " option".toList)
    else if known.toList.contains l then
      let (more, rest) ← letters known withValue ls rest
      return ((l, []) :: more, rest)
    else fail ("Illegal option -".toList ++ [l])

/-- Read the options before the operands, in at most `fuel` arguments. -/
def options (known withValue : String) : Nat → List Octets →
    Effect (List (Char × Octets) × List Octets)
  | 0, args => return ([], args)
  | _ + 1, [] => return ([], [])
  | fuel + 1, arg :: rest => do
    match arg with
    | ['-', '-'] => return ([], rest)
    | '-' :: l :: ls =>
      let (given, rest) ← letters known withValue (l :: ls) rest
      let (more, rest) ← options known withValue fuel rest
      return (given ++ more, rest)
    | _ => return ([], arg :: rest)

/-- The operands of a command that has no options. -/
def operands (args : List Octets) : Effect (List Octets) := do
  return (← options "" "" 1 args).2

/-- A text in quotes, so that a shell would read it back. -/
def quote (s : Octets) : Octets :=
  let pieces := Octets.splitAt '\x27' s
  let step : Octets × Nat → Octets → Octets × Nat
    | (done, quotes), piece =>
      if piece = [] then (done, quotes + 1)
      else
        let marks := if quotes = 0 then [] else ['"'] ++ List.replicate quotes '\x27' ++ ['"']
        (done ++ marks ++ ['\x27'] ++ piece ++ ['\x27'], 1)
  let (done, quotes) := pieces.foldl step ([], 0)
  let start := if s.head? = none ∨ s.head? = some '\x27' then ['\x27', '\x27'] else []
  let marks := if quotes ≤ 1 then []
    else ['"'] ++ List.replicate (quotes - 1) '\x27' ++ ['"']
  start ++ done ++ marks

/-! ## Variables -/

/-- Split an argument at its first equals sign. -/
def split (arg : Octets) : Octets × Option Octets :=
  match arg.span (· ≠ '=') with
  | (name, _ :: value) => (name, some value)
  | (name, []) => (name, none)

/-- Refuse what is no name of a variable. An equals sign and what stands behind it do not
count. -/
def checkName (name : Octets) : Effect Octets := do
  let name := (split name).1
  if Reading.isName name then return name else fail (name ++ ": bad variable name".toList)

/-- List variables in the form of commands. -/
def list (command : Octets) (p : Variable → Bool) : Effect Nat := do
  let chosen := ((← process).bindings.filter fun (_, v) => p v).mergeSort fun a b =>
    !decide (b.1 < a.1)
  for (name, v) in chosen do
    let lead := if command = [] then [] else command ++ [' ']
    put (lead ++ name ++ (v.value.elim [] fun value => '=' :: quote value) ++ ['\n'])
  return 0

/-- Change the marks of variables, which may be set as well. -/
def declare (command : String) (shown : Variable → Bool) (mark : Variable → Variable) : Builtin :=
  fun args => do
    let (given, names) ← options "p" "" (args.length + 1) args
    if names = [] ∨ given ≠ [] then list command.toList shown
    else
      for arg in names do
        let (_, value) := split arg
        let name ← checkName arg
        if let some value := value then assign name value
        let v := ((← process).bindings.lookup name).getD ⟨none, false, false⟩
        storeVariable name (some (mark v))
      return 0

/-- Forget variables or functions. -/
def unset : Builtin := fun args => do
  let (given, names) ← options "vf" "" (args.length + 1) args
  for name in names do
    if (given.getLast?.map Prod.fst) = some 'f' then
      setProcess fun p => { p with functions := p.functions.filter (·.1 ≠ name) }
    else
      let name ← checkName name
      if ((← process).bindings.lookup name).any Variable.constant then
        fail (name ++ ": is read only".toList)
      restoreVariable name none
  return 0

/-- Keep a variable as it is, until the running function ends. -/
def keep (name : Octets) : Effect Unit :=
  setProcess fun p =>
    match p.saved with
    | frame :: frames =>
      if (frame.locals.lookup name).isSome then p
      else
        let locals := (name, p.bindings.lookup name) :: frame.locals
        { p with saved := { frame with locals := locals } :: frames }
    | [] => p

/-- Keep the options as they are, until the running function ends. -/
def keepOptions : Effect Unit :=
  setProcess fun p =>
    match p.saved with
    | frame :: frames =>
      let options := frame.options.or (some p.options)
      { p with saved := { frame with options := options } :: frames }
    | [] => p

/-- Make variables local to the running function. -/
def «local» : Builtin := fun args => do
  if (← process).saved.isEmpty then fail "not in a function".toList
  for arg in args do
    let (_, value) := split arg
    if arg = ['-'] then keepOptions
    else
      let name ← checkName arg
      keep name
      if let some value := value then assign name value
  return 0

/-! ## Aliases -/

/-- An alias with its text, as it is listed. -/
def aliasLine (name text : Octets) : Octets := name ++ ['='] ++ quote text ++ ['\n']

/-- The place of a name in the list of aliases; within one place they keep their order. -/
def aliasPlace (name : Octets) : Nat :=
  name.foldl (fun n c => n + c.toNat) ((name.head?.elim 0 Char.toNat) * 16) % 39

/-- Give words texts that they stand for, or list these. -/
def «alias» : Builtin := fun args => do
  if args = [] then
    let listed := (← process).aliases.mergeSort fun a b => aliasPlace a.1 ≤ aliasPlace b.1
    for (name, text) in listed do put (aliasLine name text)
    return 0
  else
    let mut status := 0
    for arg in args do
      let (start, rest) := arg.tail.span (· ≠ '=')
      match rest with
      | _ :: text =>
        let name := arg.take 1 ++ start
        setProcess fun p =>
          { p with aliases :=
              if (p.aliases.lookup name).isSome then
                p.aliases.map fun (n, t) => (n, if n = name then text else t)
              else p.aliases ++ [(name, text)] }
      | [] =>
        match (← process).aliases.lookup arg with
        | some text => put (aliasLine arg text)
        | none =>
          putError ("alias: ".toList ++ arg ++ " not found\n".toList)
          status := 1
    return status

/-- Forget aliases. -/
def unalias : Builtin := fun args => do
  let (given, names) ← options "a" "" (args.length + 1) args
  if given ≠ [] then
    setProcess fun p => { p with aliases := [] }
    return 0
  else
    let mut status := 0
    for name in names do
      if ((← process).aliases.lookup name).isNone then
        putError ("unalias: ".toList ++ name ++ " not found\n".toList)
        status := 1
      setProcess fun p => { p with aliases := p.aliases.filter (·.1 ≠ name) }
    return status

/-! ## Options of the shell -/

/-- Names and letters of the options, in the order in which they are listed. -/
def optionNames : List (String × Char) :=
  [("errexit", 'e'), ("noglob", 'f'), ("ignoreeof", 'I'), ("interactive", 'i'), ("monitor", 'm'),
    ("noexec", 'n'), ("stdin", 's'), ("xtrace", 'x'), ("verbose", 'v'), ("vi", 'V'),
    ("emacs", 'E'), ("noclobber", 'C'), ("allexport", 'a'), ("notify", 'b'), ("nounset", 'u'),
    ("privileged", 'p'), ("nolog", '\x01'), ("debug", '\x02')]

/-- Turn a known option on or off. Without a terminal there is no job control, and of the two ways
of editing lines only one is on. -/
def switch (on : Bool) (letter : Char) : Effect Unit := do
  if on ∧ letter = 'm' then complain "can't access tty; job control turned off".toList
  else
    setProcess fun p =>
      let others := p.options.filter fun l =>
        l ≠ letter ∧ !(on && ((letter = 'V' && l = 'E') || (letter = 'E' && l = 'V')))
      { p with options := if on then letter :: others else others }

/-- Turn an option on or off. -/
def setOption (on : Bool) (letter : Char) : Effect Unit := do
  if optionNames.any fun (_, l) => l = letter ∧ ' ' < l then switch on letter
  else fail ("Illegal option -".toList ++ [letter])

/-- Turn an option on or off by its name, or list all options where no name is given. -/
def setOptionByName (on : Bool) (name : Option Octets) : Effect Unit := do
  match name with
  | none =>
    if on then put ("Current option settings".toList ++ ['\n'])
    let p ← process
    for (name, letter) in optionNames do
      let isOn := p.options.contains letter
      if on then
        put ((name.toList.rightpad 16 ' ') ++ (if isOn then "on" else "off").toList ++ ['\n'])
      else put ("set ".toList ++ (if isOn then "-o " else "+o ").toList ++ name.toList ++ ['\n'])
  | some name =>
    match optionNames.lookup (String.ofList name) with
    | some letter => switch on letter
    | none => fail ("Illegal option -o ".toList ++ name)

/-- What the options of a shell leave: whether a script was asked for, and other arguments. With
`none` for the arguments there was no end mark and nothing behind the options. -/
structure Settings where
  wantsScript : Bool
  rest : List Octets
  ended : Bool

/-- Carry out the letters of one argument. `starting` says that they are those of a shell that
is being started. -/
def applyLetters (starting on : Bool) : Octets → List Octets → Effect (Bool × List Octets)
  | [], rest => return (false, rest)
  | l :: ls, rest => do
    if starting ∧ l = 'c' then
      let (_, rest) ← applyLetters starting on ls rest
      return (true, rest)
    else if starting ∧ l = 'l' then applyLetters starting on ls rest
    else if l = 'o' then
      setOptionByName on rest.head?
      applyLetters starting on ls rest.tail
    else
      setOption on l
      applyLetters starting on ls rest

/-- Carry out options, in at most `fuel` arguments. -/
def applyOptions (starting : Bool) : Nat → List Octets → Effect Settings
  | 0, args => return ⟨false, args, false⟩
  | _ + 1, [] => return ⟨false, [], false⟩
  | fuel + 1, arg :: rest => do
    match arg with
    | ['-'] =>
      unless starting do
        setProcess fun p => { p with options := p.options.filter fun l => l ≠ 'x' ∧ l ≠ 'v' }
      return ⟨false, rest, false⟩
    | ['-', '-'] => return ⟨false, rest, true⟩
    | sign :: ls =>
      if sign = '-' ∨ sign = '+' then
        let (script, rest) ← applyLetters starting (sign = '-') ls rest
        let more ← applyOptions starting fuel rest
        return { more with wantsScript := script || more.wantsScript }
      else return ⟨false, arg :: rest, false⟩
    | [] => return ⟨false, arg :: rest, false⟩

/-- Set options and arguments of the shell. -/
def set : Builtin := fun args => do
  if args = [] then list [] fun v => v.value.isSome
  else
    let settings ← applyOptions false (args.length + 1) args
    if settings.ended ∨ settings.rest ≠ [] then
      setProcess fun p => { p with arguments := settings.rest }
      restartOptions 1
    return 0

/-- Drop the first arguments of the shell. -/
def shift : Builtin := fun args => do
  let n ← match args with
    | [] => pure 1
    | text :: _ => number text
  if (← process).arguments.length < n then fail "can\x27t shift that many".toList
  setProcess fun p => { p with arguments := p.arguments.drop n }
  restartOptions 1
  return 0

/-! ## Control -/

/-- Leave loops, or go on with the next round of one. -/
def leaveLoops (leave : Nat → Interrupt) : Builtin := fun args => do
  let n ← match args with
    | [] => pure 1
    | text :: _ => do
      let n ← number text
      if n = 0 then fail ("Illegal number: ".toList ++ text) else pure n
  let loops := (← process).loops
  if loops = 0 then return 0
  else
    setProcess fun p => { p with status := 0 }
    throw (leave (min n loops))

/-- Leave a function or a script. -/
def «return» : Builtin := fun args => do
  let status ← match args with
    | [] => pure ((← process).leaving.getD (← process).status)
    | text :: _ => number text
  setProcess fun p => { p with status := status }
  throw .return

/-- End the shell. -/
def exit : Builtin := fun args => do
  match args with
  | [] => throw (.exit none)
  | text :: _ => throw (.exit (some (← number text)))

/-! ## Output and input -/

/-- Write the arguments, with escapes replaced, and a newline unless it is declined. -/
def echo : Builtin := fun args => do
  let (newline, args) := match args with
    | ['-', 'n'] :: rest => (false, rest)
    | args => (true, args)
  let text := Octets.joined [' '] args
  let (out, finish) := Escape.replaceAll (Escape.inArgument false) (text.length + 1) text
  put (if newline ∧ finish.isWhole then out ++ ['\n'] else out)
  return 0

/-- Write arguments as a format says. -/
def printf : Builtin := fun args => do
  match ← operands args with
  | [] => fail "usage: printf format [arg ...]".toList
  | format :: args =>
    let (status, out, complaints) := Printf.run .command format args
    complaints.forM complain
    put out
    return status

/-- A condition; in brackets it ends with a bracket. -/
def test (call : List Octets → Effect Call) (inBrackets : Bool) : Builtin := fun args => do
  let words ←
    if inBrackets then
      if args.getLast? = some [']'] then pure args.dropLast else fail "missing ]".toList
    else pure args
  match Condition.evaluate (← call args) (words.length + 1) words with
  | .ok true => return 0
  | .ok false => return 1
  | .error text => fail text

/-- The characters of a line, with those that stood behind a backslash marked, whether the line
is complete, and what follows it. -/
def takeLine (raw : Bool) : List Pattern.Marked → Octets → List Pattern.Marked × Bool × Octets
  | done, [] => (done.reverse, false, [])
  | done, '\x00' :: cs => takeLine raw done cs
  | done, '\n' :: cs => (done.reverse, true, cs)
  | done, c :: cs =>
    if c = '\\' ∧ !raw then
      match cs with
      | [] => (done.reverse, false, [])
      | '\n' :: cs => takeLine raw done cs
      | d :: cs => takeLine raw ((d, true) :: done) cs
    else takeLine raw ((c, false) :: done) cs

/-- Read a line into variables. -/
def read : Builtin := fun args => do
  let (given, names) ← options "r" "p" (args.length + 1) args
  if names = [] then fail "arg count".toList
  let before ← input 0
  let (line, complete, rest) := takeLine (given.any (·.1 = 'r')) [] before
  leaveRest 0 before rest
  let separators := (valueOf? (← process) "IFS".toList).getD defaultSeparators
  let values := Fields.cutLine separators names.length line
  for (name, i) in names.zipIdx do
    assign (← checkName name) (values[i]?.getD [])
  return if complete then 0 else 1

/-- Read the next option among arguments. -/
def getopts : Builtin := fun args => do
  match args with
  | known :: target :: given =>
    let p ← process
    let args := if given = [] then p.arguments else given
    let isBeyond := args.length + 1 < p.optionIndex
    let index := if isBeyond then 1 else p.optionIndex
    let current := if index ≤ 1 then none else args[index - 2]?
    let inside := if isBeyond ∨ p.letter = 0 then [] else (current.getD []).drop p.letter
    let finish (index letter : Nat) (value : Octets) (status : Nat) : Effect Nat := do
      assign "OPTIND".toList (Text.decimal index)
      setProcess fun p => { p with optionIndex := index, letter := letter }
      assign (← checkName target) value
      return status
    let silent := known.head? = some ':'
    let readLetter (index : Nat) (word s : Octets) : Effect Nat := do
      match s with
      | [] => finish index 0 ['?'] 1
      | c :: cs =>
        let behind := word.length - cs.length
        let letter := if cs = [] then 0 else behind
        match known.dropWhile (· ≠ c) with
        | _ :: ':' :: _ =>
          if c = ':' then
            finish index letter ['?'] 0
          else if cs ≠ [] then
            assign "OPTARG".toList cs
            finish index 0 [c] 0
          else
            match args[index - 1]? with
            | some v =>
              assign "OPTARG".toList v
              finish (index + 1) 0 [c] 0
            | none =>
              if silent then
                assign "OPTARG".toList [c]
                finish index 0 [':'] 0
              else
                putError ("No arg for -".toList ++ [c] ++ " option\n".toList)
                storeVariable "OPTARG".toList none
                finish index 0 ['?'] 0
        | _ :: _ =>
          assign "OPTARG".toList []
          finish index letter [c] 0
        | [] =>
          if silent then assign "OPTARG".toList [c]
          else
            putError ("Illegal option -".toList ++ [c] ++ ['\n'])
            storeVariable "OPTARG".toList none
          finish index letter ['?'] 0
    if inside ≠ [] then readLetter index (current.getD []) inside
    else
      match args[index - 1]? with
      | some ['-', '-'] => finish (index + 1) 0 ['?'] 1
      | some ('-' :: l :: ls) => readLetter (index + 1) ('-' :: l :: ls) (l :: ls)
      | _ => finish index 0 ['?'] 1
  | _ => fail "Usage: getopts optstring var [arg...]".toList

/-! ## Directories -/

/-- The path of a directory, where the folder of the program counts as a directory of its
own. -/
def pathOf : Directory → Octets
  | .outside => ['/']
  | .at ("/" :: path) => '/' :: Octets.ofText ("/".intercalate path)
  | .at path => Octets.ofText ("/".intercalate ("/work" :: path))

/-- Work in another directory. -/
def cd : Builtin := fun args => do
  let (_, operands) ← options "LP" "" (args.length + 1) args
  let p ← process
  let (path, shows) := match operands with
    | [] => ((valueOf? p "HOME".toList).getD [], false)
    | ['-'] :: _ => ((valueOf? p "OLDPWD".toList).getD [], true)
    | path :: _ => (path, false)
  match (← world).folder.resolveFrom p.place (if path = [] then "." else path.toText) with
  | .ok (.directory d) =>
    storeVariable "OLDPWD".toList (some ⟨some (pathOf p.place), true, false⟩)
    storeVariable "PWD".toList (some ⟨some (pathOf d), true, false⟩)
    setProcess fun p => { p with place := d }
    if shows then put (pathOf d ++ ['\n'])
    return 0
  | _ => fail ("can\x27t cd to ".toList ++ path)

/-- Tell the directory. -/
def pwd : Builtin := fun args => do
  let _ ← options "LP" "" (args.length + 1) args
  put (pathOf (← process).place ++ ['\n'])
  return 0

/-! ## Processes -/

/-- A signal that a word names, by number or by name; the first name may be that of number 0. -/
def signalOf? (first : Nat) (word : Octets) : Option Nat :=
  match signal? word with
  | some 0 => if first = 0 ∨ word.all Char.isDigit then some 0 else none
  | n => n

/-- Send a signal to a process; `false` if there is none. -/
def send (signal target : Nat) : Effect Bool := do
  let p ← process
  let w ← world
  if target = p.number then
    if signal = 0 then return true
    else
      match p.traps.lookup signal with
      | some action =>
        if unstoppable.contains signal then throw (.killed signal)
        if action ≠ [] then
          setWorld fun w => { w with signals := (target, signal) :: w.signals }
        return true
      | none =>
        if harmless.contains signal then return true else throw (.killed signal)
  else if p.ancestors.contains target then
    unless signal = 0 do
      setWorld fun w => { w with signals := (target, signal) :: w.signals }
    return true
  else if w.waiting.any (·.process.number = target) then
    unless signal = 0 ∨ harmless.contains signal do
      setWorld fun w =>
        { w with
          waiting := w.waiting.filter (·.process.number ≠ target)
          ended := (target, .killed signal) :: w.ended }
    return true
  else return (w.ended.lookup target).isSome

/-- The process in the background that a text names: the last one, the one before it, or that of a
slot. -/
def childNamed (text : Octets) : Effect Child := do
  let children := (← process).children
  let give (c : Option Child) (complaint : String) : Effect Child :=
    match c with
    | some c => return c
    | none => fail complaint.toList
  match text with
  | ['%'] | ['%', '%'] | ['%', '+'] => give children.head? "No current job"
  | ['%', '-'] => give children[1]? "No previous job"
  | _ =>
    let slot := if text.head? = some '%' ∧ text.tail.all Char.isDigit then
      some (Integer.valueOf 10 text.tail) else none
    match slot.bind fun n => children.find? (·.slot = n) with
    | some c => return c
    | none => fail ("No such job: ".toList ++ text)

/-- A process in the background as it is listed. -/
def listChild (showsNumber numberOnly : Bool) (c : Child) : Effect Unit := do
  let p ← process
  if numberOnly then put (Text.decimal c.number ++ ['\n'])
  else
    let mark := match p.children with
      | first :: second :: _ =>
        if c.number = first.number then '+' else if c.number = second.number then '-' else ' '
      | _ => '+'
    let state := match (← world).ended.lookup c.number with
      | none => "Running".toList
      | some (.exited 0) => "Done".toList
      | some (.exited n) => "Done(".toList ++ Text.decimal n ++ [')']
      | some (.killed signal) => ((obituary? signal).getD "").toList
    let number := if showsNumber then Text.decimal c.number ++ [' '] else []
    let lead := ['['] ++ Text.decimal c.slot ++ [']', ' ', mark, ' ']
    put ((lead ++ number ++ state).rightpad 33 ' ' ++ ['\n'])
  if ((← world).ended.lookup c.number).isSome then
    setProcess fun p => { p with children := p.children.filter (·.number ≠ c.number) }

/-- List processes in the background. Those that have ended are then forgotten. -/
def jobs : Builtin := fun args => do
  let (given, names) ← options "lp" "" (args.length + 1) args
  let last := given.getLast?.map Prod.fst
  let shown ← match names with
    | [] => pure (← process).children
    | names => names.mapM childNamed
  for c in shown do listChild (last = some 'l') (last = some 'p') c
  return 0

/-- Go on with a process in the background, which cannot be done without job control. -/
def goOn : Builtin := fun args => do
  match ← operands args with
  | [] =>
    let _ ← childNamed ['%']
    fail "job (null) not created under job control".toList
  | name :: _ =>
    let _ ← childNamed name
    fail ("job ".toList ++ name ++ " not created under job control".toList)

/-- Send signals, or list their names. -/
def kill : Builtin := fun args => do
  let usage : Effect Nat := fail
    ("Usage: kill [-s sigspec | -signum | -sigspec] [pid | job]... or\n".toList ++
      "kill -l [exitstatus]".toList)
  let choice : Effect (Option Nat × Bool × List Octets) := do
    match args with
    | ('-' :: name) :: rest =>
      match signalOf? 1 name with
      | some n => return (some n, false, rest)
      | none =>
        let (given, rest) ← options "l" "s" (args.length + 1) args
        let mut chosen := none
        for (l, v) in given do
          if l = 's' then
            match signalOf? 1 v with
            | some n => chosen := some n
            | none => fail ("invalid signal number or name: ".toList ++ v)
        return (chosen, given.any (·.1 = 'l'), rest)
    | args => return (none, false, args)
  if args = [] then usage
  else
    let (signal, lists, targets) ← choice
    if lists then
      match targets with
      | [] =>
        put ['0', '\n']
        for name in signalNames do put (name.toList ++ ['\n'])
        return 0
      | text :: _ =>
        if signal.isSome then return ← usage
        let n ← number text
        let n := if 128 < n then n - 128 else n
        match if n = 0 then none else signalNames[n - 1]? with
        | some name =>
          put (name.toList ++ ['\n'])
          return 0
        | none => fail ("invalid signal number or exit status: ".toList ++ text)
    else if targets = [] then usage
    else
      let mut status := 0
      for text in targets do
        -- a process in the background is no group of its own
        let reached ← match text with
          | '%' :: _ => do
            let _ ← childNamed text
            pure false
          | '-' :: digits => do send (signal.getD 15) (← number digits)
          | text => do send (signal.getD 15) (← number text)
        unless reached do
          complain "No such process\n".toList
          status := 1
      return status

/-- What signals and the end of the shell lead to. -/
def trap : Builtin := fun args => do
  let words ← operands args
  match words with
  | [] =>
    let p ← process
    for (signal, action) in p.traps.mergeSort fun a b => a.1 ≤ b.1 do
      let name := if signal = 0 then "EXIT" else (signalNames[signal - 1]?).getD ""
      put ("trap -- ".toList ++ quote action ++ [' '] ++ name.toList ++ ['\n'])
    return 0
  | first :: rest =>
    let (action, names) :=
      if rest = [] ∨ (first ≠ [] ∧ first.all Char.isDigit ∧ (signalOf? 0 first).isSome) then
        (none, words)
      else (if first = ['-'] then none else some first, rest)
    for name in names do
      match signalOf? 0 name with
      | some signal =>
        setProcess fun p =>
          let others := p.traps.filter (·.1 ≠ signal)
          { p with traps := action.elim others fun action => (signal, action) :: others }
      | none =>
        putError ("trap: ".toList ++ name ++ ": bad trap\n".toList)
        return 1
    return 0

/-- A number in base eight, with at least so many digits. -/
def octal (width n : Nat) : Octets :=
  let digits := (Nat.toDigits 8 n)
  List.replicate (width - digits.length) '0' ++ digits

/-- The permissions of the owner, the group and others that letters stand for, given those that
there are. -/
def permissions (allowed : Nat) (letters : Octets) : Nat :=
  let one : Char → Nat
    | 'r' => 4
    | 'w' => 2
    | 'x' => 1
    | 'u' => allowed / 64 % 8
    | 'g' => allowed / 8 % 8
    | 'o' => allowed % 8
    | 'X' => if allowed &&& 73 = 0 then 0 else 1
    | _ => 0
  letters.foldl (fun n l => n ||| one l) 0

/-- Change permissions as clauses say, of which each begins with letters for whom it holds, unless
they are those of the clause before. What there was at the beginning is `before`; `none` if a clause
makes no sense. -/
def changePermissions (before : Nat) : Nat → (whom allowed : Nat) → Octets → Option Nat
  | 0, _, _, _ => none
  | fuel + 1, whom, allowed, s =>
    let (letters, rest) := s.span "augo".toList.contains
    let place : Char → Nat
      | 'u' => 64
      | 'g' => 8
      | 'o' => 1
      | _ => 73
    let whom := letters.foldl (fun n l => n ||| place l) whom
    let whom := if whom = 0 then 73 else whom
    match rest with
    | [] => some allowed
    | operator :: rest =>
      if !"=+-".toList.contains operator then none
      else
        let (letters, rest) := rest.span "rwxugoXs".toList.contains
        let value := permissions before letters * whom
        let without (n : Nat) : Nat := allowed - (allowed &&& n)
        let allowed := match operator with
          | '-' => without value
          | '=' => value ||| without (whom * 7)
          | _ => allowed ||| value
        match rest with
        | [] => some allowed
        | ',' :: rest => changePermissions before fuel 0 allowed rest
        | c :: rest =>
          if "=+-".toList.contains c then changePermissions before fuel whom allowed (c :: rest)
          else none

/-- The permissions that new files are not given. -/
def umask : Builtin := fun args => do
  let (given, operands) ← options "S" "" (args.length + 1) args
  let mask := (← process).mask
  match operands with
  | [] =>
    if given = [] then put (octal 4 mask ++ ['\n'])
    else
      let letters (n : Nat) : Octets :=
        (if n / 4 % 2 = 0 then ['r'] else []) ++ (if n / 2 % 2 = 0 then ['w'] else []) ++
          (if n % 2 = 0 then ['x'] else [])
      put ("u=".toList ++ letters (mask / 64) ++ ",g=".toList ++ letters (mask / 8) ++
        ",o=".toList ++ letters mask ++ ['\n'])
    return 0
  | text :: _ =>
    if text.head?.any Char.isDigit then
      if text.all fun c => (Integer.digit? 8 c).isSome then
        setProcess fun p => { p with mask := Integer.valueOf 8 text % 512 }
        return 0
      else fail ("Illegal number: ".toList ++ text)
    else
      let allowed := 511 - mask
      match changePermissions allowed (text.length + 1) 0 allowed text with
      | some allowed =>
        setProcess fun p => { p with mask := 511 - allowed }
        return 0
      | none => fail ("Illegal mode: ".toList ++ text)

/-- The limits that a process has: their letters, names and what they are at first, where nothing is
no limit. -/
def limits : List (Char × String × Option Nat × Option Nat) :=
  [('t', "time(seconds)", none, none), ('f', "file(blocks)", none, none),
    ('d', "data(kbytes)", none, none), ('s', "stack(kbytes)", some 8192, none),
    ('c', "coredump(blocks)", some 0, none), ('m', "memory(kbytes)", none, none),
    ('l', "locked memory(kbytes)", some 8192, some 8192), ('p', "process", none, none),
    ('n', "nofiles", some 1048576, some 1048576), ('v', "vmemory(kbytes)", none, none),
    ('w', "locks", none, none), ('r', "rtprio", some 0, some 0)]

/-- A limit of a process, the hard one or the soft one. -/
def limitOf (p : Process) (letter : Char) (isHard : Bool) : Option Nat :=
  match p.limits.lookup (letter, isHard) with
  | some n => n
  | none => (limits.lookup letter).bind fun (_, soft, hard) => if isHard then hard else soft

/-- Show or set limits. -/
def ulimit : Builtin := fun args => do
  let (given, values) ← options "HSatfdscmlpnvwr" "" (args.length + 1) args
  let given := given.map Prod.fst
  let letter := ((given.filter fun l => !"HSa".toList.contains l).getLast?).getD 'f'
  let manner := (given.filter fun l => l = 'H' ∨ l = 'S').getLast?
  let shown (p : Process) (letter : Char) : Octets :=
    (limitOf p letter (manner = some 'H')).elim "unlimited".toList Text.decimal ++ ['\n']
  match values with
  | [] =>
    let p ← process
    if given.contains 'a' then
      for (l, name, _) in limits do put (name.toList.rightpad 20 ' ' ++ [' '] ++ shown p l)
    else put (shown p letter)
    return 0
  | text :: more =>
    if given.contains 'a' ∨ more ≠ [] then fail "too many arguments".toList
    if text ≠ "unlimited".toList ∧ !text.all Char.isDigit then fail "bad number".toList
    let value := if text.all Char.isDigit then some (Integer.valueOf 10 text) else none
    let p ← process
    let hard := if manner = some 'S' then limitOf p letter true else value
    let soft := if manner = some 'H' then limitOf p letter false else value
    let isBeyond : Bool := match hard, soft with
      | some h, some s => decide (h < s)
      | some _, none => true
      | none, _ => false
    if isBeyond then fail "error setting limit (Invalid argument)".toList
    setProcess fun p =>
      { p with limits := ((letter, true), hard) :: ((letter, false), soft) :: p.limits }
    return 0

/-- Nothing to be done. -/
def nothing (status : Nat) : Builtin := fun _ => return status

/-- The place of a name in the list of programs that have been found; within one place they keep
their order. -/
def foundPlace (name : Octets) : Nat :=
  name.foldl (fun n c => n + c.toNat) ((name.head?.elim 0 Char.toNat) * 16) % 31

/-! ## The commands by name -/

/-- Commands that are carried out with other commands. -/
def composite : List String := [".", "command", "eval", "exec", "hash", "type", "wait"]

/-- A built-in command by its name. -/
def named? (call : List Octets → Effect Call) (name : String) : Option Builtin :=
  match name with
  | ":" | "true" => some (nothing 0)
  | "false" => some (nothing 1)
  | "alias" => some «alias»
  | "jobs" => some jobs
  | "bg" | "fg" => some goOn
  | "unalias" => some unalias
  | "break" => some (leaveLoops .break)
  | "continue" => some (leaveLoops .continue)
  | "cd" | "chdir" => some cd
  | "echo" => some echo
  | "exit" => some exit
  | "export" => some (declare "export" Variable.exported fun v => { v with exported := true })
  | "readonly" =>
    some (declare "readonly" Variable.constant fun v => { v with constant := true })
  | "getopts" => some getopts
  | "kill" => some kill
  | "local" => some «local»
  | "printf" => some printf
  | "pwd" => some pwd
  | "read" => some read
  | "return" => some «return»
  | "set" => some set
  | "shift" => some shift
  | "test" => some (test call false)
  | "[" => some (test call true)
  | "times" =>
    some fun _ => do
      for _ in [0, 1] do put "0m0.000000s 0m0.000000s\n".toList
      return 0
  | "trap" => some trap
  | "ulimit" => some ulimit
  | "umask" => some umask
  | "unset" => some unset
  | _ => none

/-- The command is special: what it sets stays set, and if it fails the shell ends. -/
def isSpecial (name : String) : Bool :=
  [".", ":", "break", "continue", "eval", "exec", "exit", "export", "local", "readonly", "return",
    "set", "shift", "times", "trap", "unset"].contains name

/-- The arguments of the command may be assignments, which are not split into fields. -/
def takesAssignments (name : String) : Bool := ["export", "local", "readonly"].contains name

end Builtin

end Provenance.Shell

import Provenance.Shell.Builtin
import Provenance.Shell.Listing
import Provenance.Shell.Program

/-!
# Running scripts

The commands of a script are carried out one after another. Words are expanded to segments and
these to fields; a command is then a function, a built-in command or a program. What must not
change the shell is carried out in a copy of its process.

## Implementation notes

Scripts may call themselves without end, so evaluation has a bound on its depth. A script that goes
beyond it is ended as by a stack that is full. The rounds of a loop and the lines of a source do not
count as depth.
-/

namespace Provenance.Shell

open Effect

/-! ## Parameters -/

namespace Effect

/-- The characters at which fields are cut. -/
def separators (p : Process) : Octets := (valueOf? p "IFS".toList).getD defaultSeparators

/-- What stands between the arguments when they are joined. -/
def joint (p : Process) : Octets := (separators p).take 1

/-- The letters of the options that are on. -/
def optionLetters (p : Process) : Octets :=
  (Builtin.optionNames.map Prod.snd).reverse.filter fun l => ' ' < l ∧ p.options.contains l

/-- The value of a parameter, if it is set. All arguments are joined. -/
def parameter? (p : Process) (name : Octets) : Option Octets :=
  match name with
  | ['?'] => some (Text.decimal p.status)
  | ['$'] => some (Text.decimal p.shell)
  | ['#'] => some (Text.decimal p.arguments.length)
  | ['!'] => p.background.map Text.decimal
  | ['-'] => some (optionLetters p)
  | ['@'] | ['*'] => some (Octets.joined (joint p) p.arguments)
  | name =>
    if name ≠ [] ∧ name.all Char.isDigit then
      let n := Integer.valueOf 10 name
      if n = 0 then some p.name else p.arguments[n - 1]?
    else valueOf? p name

/-- The value of a parameter as it stands in a word that may become several fields. -/
def parameterSegments (p : Process) (inQuotes : Bool) (name value : Octets) : List Segment :=
  match inQuotes, name with
  | true, ['@'] => [.separate p.arguments]
  | false, ['@'] | false, ['*'] => [.loose (Octets.joined ['\x00'] p.arguments)]
  | true, _ => [.fixed true value, .mark]
  | false, _ => [.loose value]

/-- The segments of a word in place of a parameter: outside quotes all of it is cut at
separators that did not stand in quotes. -/
def loosened (inQuotes : Bool) (segments : List Segment) : List Segment :=
  if inQuotes then segments
  else segments.map fun
    | .fixed false text => .loose text
    | s => s

/-- Complain that a parameter is not set. -/
def complainUnset {α : Type} (name text : Octets) : Effect α := fail (name ++ ": ".toList ++ text)

/-- What a tilde and the name behind it stand for. -/
def home? (p : Process) (name : Octets) : Option Octets :=
  if name = [] then valueOf? p "HOME".toList
  else if name = "root".toList then some "/root".toList
  else none

/-- Replace the tilde at the beginning of a word. In an assignment a colon ends a name too. -/
def expandTilde (p : Process) (inAssignment : Bool) : Word → List Segment × Word
  | .plain ('~' :: text) :: rest =>
    let (name, after) := text.span fun c => c ≠ '/' ∧ !(inAssignment && c = ':')
    if after = [] ∧ rest ≠ [] then ([], .plain ('~' :: text) :: rest)
    else
      match home? p name with
      | some path =>
        ([.fixed true path, .mark], if after = [] then rest else .plain after :: rest)
      | none => ([], .plain ('~' :: text) :: rest)
  | word => ([], word)

/-! ## Failures -/

/-- What a part of a script leads to, so that something can be done behind it in any case. -/
def observe {α : Type} (body : Effect α) : Effect (Except Interrupt α) :=
  ExceptT.lift body.run

/-- Go on as another part has ended. -/
def resume {α : Type} (r : Except Interrupt α) : Effect α :=
  match r with
  | .ok a => return a
  | .error e => throw e

def setStatus (status : Nat) : Effect Unit := setProcess fun p => { p with status := status }

/-- Carry out a body, and put the open streams back to where they were. -/
def keepingStreams (body : Effect Unit) : Effect Unit := do
  let streams := (← process).streams
  let r ← observe body
  setProcess fun p => { p with streams := streams }
  resume r

/-- What a reason to refuse a file is called. -/
def refusal (creating : Bool) (e : OsError) : Octets :=
  match e with
  | .noEntry | .notDirectory =>
    (if creating then "Directory nonexistent" else "No such file").toList
  | e => e.reason.toList

/-- Open a file and put it behind a number. -/
def openFile (stream : Nat) (mode : Opening) (path : Octets) : Effect Unit := do
  let p ← process
  let creating := mode = .write || mode = .overwrite || mode = .append
  let refuse (text : Octets) : Effect Unit :=
    fail ((if creating then "cannot create " else "cannot open ").toList ++ path ++ ": ".toList ++
      text)
  let opened (channel : Channel) : Opened :=
    ⟨channel, 0, mode = .append, mode = .read || mode = .update, mode ≠ .read⟩
  match alias? path with
  | some other =>
    match ← opened? other with
    | some (index, _) => copyStream stream index
    | none => refuse (refusal creating .noEntry)
  | none =>
    let folder := (← world).folder
    if mode = .read then
      match folder.resolveFrom p.place path.toText with
      | .ok (.file p _) => openAs stream (opened (.file p))
      | .ok (.device d) => openAs stream (opened (.device d))
      | .ok (.directory d) => openAs stream (opened (.directory d))
      | .ok (.vacant _) => refuse (refusal creating .noEntry)
      | .error e => refuse (refusal creating e)
    else
      match folder.forWriting p.place path.toText with
      | .ok (.inl d) => openAs stream (opened (.device d))
      | .ok (.inr p') =>
        let isThere := (folder.lookup? p').isSome
        if isThere ∧ mode = .write ∧ p.options.contains 'C' then refuse "File exists".toList
        else
          if mode = .write ∨ mode = .overwrite ∨ !isThere then
            setWorld fun w => { w with folder := w.folder.put p' [] }
          openAs stream (opened (.file p'))
      | .error e => refuse (refusal creating e)

/-- A redirection whose words have been expanded. -/
inductive Target
  | file (stream : Nat) (mode : Opening) (path : Octets)
  | copy (stream source : Nat)
  | close (stream : Nat)
  | text (stream : Nat) (contents : Octets)
  /-- A text that could not be expanded. -/
  | failed (status : Nat)

def redirect : Target → Effect Unit
  | .file stream mode path => openFile stream mode path
  | .copy stream source => do
    match ← opened? source with
    | some (index, _) => copyStream stream index
    | none => fail (Text.decimal source ++ ": Bad file descriptor".toList)
  | .close stream => closeStream stream
  | .text stream contents => do openAs stream (← newPipe contents)
  | .failed status => throw (.failure status)

/-- Carry out redirections; `false` if one has failed. -/
def redirectAll (targets : List Target) : Effect Bool := do
  match ← observe (targets.forM redirect) with
  | .error (.failure status) =>
    setStatus status
    return false
  | r =>
    resume r
    return true

/-- What a stream could be copied from. -/
def copyTarget (stream : Nat) (source : Octets) : Effect Target :=
  match source with
  | ['-'] => return .close stream
  | [d] =>
    if d.isDigit then return .copy stream (d.toNat - '0'.toNat)
    else fail "Syntax error: Bad fd number".toList
  | _ => fail "Syntax error: Bad fd number".toList

/-! ## Signals and processes -/

/-- The status of a process that has ended. -/
def codeOf : ExitStatus → Nat
  | .exited code => code
  | .killed signal => 128 + signal

/-- The status of a process that has ended, with a word about the signal that has ended it. -/
def statusOf (e : ExitStatus) : Effect Nat := do
  if let .killed signal := e then
    if let some text := obituary? signal then putError (text.toList ++ ['\n'])
  return codeOf e

def callOf (name : Octets) (args : List Octets) : Effect Call := do
  let m ← get
  let (isFile, isOpen) := match ← opened? 0 with
    | some (_, o) => match o.channel with
      | .file _ => (true, o.readable)
      | _ => (false, o.readable)
    | none => (false, false)
  return ⟨name, args, ← input 0, environment m.process, m.world.folder, m.process.place, isFile,
    isOpen⟩

/-- Carry out a tool on the streams of the process. -/
def runTool (tool : Tool) (name : Octets) (args : List Octets) : Effect Nat := do
  let c ← callOf name args
  let report := tool c
  leaveRest 0 c.input report.rest
  setWorld fun w => { w with folder := report.folder }
  for (isComplaint, s) in report.writes do
    if isComplaint then putError s
    else
      unless ← write 1 s do
        let reason : OsError :=
          match ← opened? 1 with
          | some (_, o) => if o.writable then .noSpace else .badStream
          | none => .badStream
        let (complaints, status) := Program.writeFailure c.name reason
        complaints.forM putError
        return status
  return report.status

/-- The variables of a shell that is being started: its own ones, and those that it is given. -/
def inheritedVariables (p : Process) : List (Octets × Variable) :=
  let own : List (Octets × Variable) :=
    [("IFS", defaultSeparators), ("OPTIND", ['1']), ("PS1", ['#', ' ']), ("PS2", ['>', ' ']),
      ("PS4", ['+', ' ']),
      ("PPID", Text.decimal (p.ancestors.head?.getD 1))].map fun (name, value) =>
        (name.toList, ⟨some value, false, false⟩)
  let given := p.bindings.filter fun (name, v) =>
    v.exported && v.value.isSome && (own.lookup name).isNone
  let missing : List (Octets × Variable) :=
    [("PATH".toList, ⟨some usualSearchPath, false, false⟩),
      ("PWD".toList, ⟨some (Builtin.pathOf p.place), true, false⟩)].filter fun (name, _) =>
        (given.lookup name).isNone
  own ++ given ++ missing

/-- The process becomes a shell of its own. -/
def becomeShell (name : Octets) : Effect Unit :=
  setProcess fun p =>
    { p with
      shell := p.number
      name := name
      arguments := []
      bindings := inheritedVariables p
      functions := []
      aliases := []
      options := []
      status := 0
      outputStatus := 0
      background := none
      children := []
      found := []
      line := 0
      command := none
      traps := p.traps.filter (·.2 = [])
      saved := []
      loops := 0
      optionIndex := 1
      letter := 0
      leaving := none }

/-- Remember the texts that redirections have announced. -/
def keepDocuments (s : Source) : Effect Source := do
  setWorld fun w => { w with documents := s.documents ++ w.documents, nextDocument := s.next }
  return { s with documents := [] }

/-- Give up for what cannot be read. -/
def failReading {α : Type} (e : SyntaxError) : Effect α := do
  setProcess fun p => { p with line := e.line }
  fail ("Syntax error: " ++ e.text).toList

/-- A source of a text that is read now. -/
def sourceOf (text : Octets) : Effect Source := do
  return .ofScript false text (← world).nextDocument

/-- A source of the text of a file, in which zero bytes do not count. -/
def sourceOfFile (text : Octets) : Effect Source := do
  return .ofScript true (text.filter (· ≠ '\x00')) (← world).nextDocument

/-- Show the lines of a file that are begun up to where so much is left, if the shell shows what it
reads. -/
def showLines (s : Source) (left : Octets) : Effect Unit := do
  if s.isFile ∧ (← process).options.contains 'v' then putError (s.linesUpTo left)

end Effect

/-- How a command is carried out: its failure is tested for, and nothing follows it in its
process. -/
structure Mode where
  isTested : Bool
  isLast : Bool

namespace Mode

/-- The mode of a part behind which other parts may follow. -/
def inner (m : Mode) : Mode := { m with isLast := false }

def condition : Mode := ⟨true, false⟩

/-- The mode of a part whose failure nobody tests for. -/
def plain : Mode := ⟨false, false⟩

end Mode

/-- End the process if the command that was carried out has failed and failures end it. -/
def checkStatus (m : Mode) : Effect Unit := do
  let p ← process
  if !m.isTested ∧ p.status ≠ 0 ∧ p.options.contains 'e' then throw (.exit (some p.status))

/-- The command and its arguments behind a word that only says how it is found. -/
def behindCommand : List Octets → Option (Octets × List Octets)
  | [] => none
  | name :: rest =>
    if name = "command".toList then behindCommand rest
    else
      match name with
      | ['-', '-'] => rest.head?.map fun first => (first, rest.tail)
      | '-' :: l :: ls => if (l :: ls).all (· = 'p') then behindCommand rest else none
      | _ => some (name, rest)

/-- The command that words stand for, whether it was named behind another word that only says
how it is found, and its arguments. -/
def commandOf (words : List Octets) : Octets × Bool × List Octets :=
  match words with
  | [] => ([], false, [])
  | name :: rest =>
    match if name = "command".toList then behindCommand rest else none with
    | some (name, args) => (name, true, args)
    | none => (name, false, rest)

/-- What the running command has to know about loops: whether they go on. -/
inductive Round
  | next
  | finished

/-- Carry out a part of a loop. -/
def loopPart (body : Effect Unit) : Effect Round := do
  match ← observe body with
  | .ok _ => return .next
  | .error (.break n) => if n ≤ 1 then return .finished else throw (.break (n - 1))
  | .error (.continue n) => if n ≤ 1 then return .next else throw (.continue (n - 1))
  | .error e => throw e

/-- Carry out a loop, which counts as one more around its commands. -/
def inLoop (body : Effect Unit) : Effect Unit := do
  setProcess fun p => { p with loops := p.loops + 1 }
  let r ← observe body
  setProcess fun p => { p with loops := p.loops - 1 }
  resume r

/-- What the name of a command stands for. -/
inductive Meaning
  | reserved
  | abbreviation (text : Octets)
  | function
  | special
  | builtin
  | program (path : Octets)

/-- Remember where a program was found. -/
def remember (name path : Octets) : Effect Unit := do
  unless name.contains '/' do
    setProcess fun p =>
      if (p.found.lookup name).isSome then p else { p with found := p.found ++ [(name, path)] }

/-- What is carried out for the name of a command. -/
def commandNamed? (name : Octets) : Effect (Option Meaning) := do
  let p ← process
  let text := String.ofList name
  if (p.functions.lookup name).isSome then return some .function
  else if Builtin.isSpecial text then return some .special
  else if Builtin.composite.contains text ∨ (Builtin.named? (callOf []) text).isSome then
    return some .builtin
  else
    let folder := (← world).folder
    match Program.locate folder p.place (searchPath p) name with
    | .ok (path, _) =>
      remember name path
      return some (.program path)
    | .error _ =>
      match name.contains '/', folder.resolveFrom p.place name.toText with
      | true, .ok (.vacant _) | true, .error _ | false, _ => return none
      | true, .ok _ => return some (.program name)

/-- What a word stands for in the place of a command. -/
def meaning? (name : Octets) : Effect (Option Meaning) := do
  if Token.reservedWords.contains (String.ofList name) then return some .reserved
  else
    match (← process).aliases.lookup name with
    | some text => return some (.abbreviation text)
    | none => commandNamed? name

/-- Tell what a word stands for in the place of a command; the status says whether it stands for
anything. -/
def describe (verbose : Bool) (name : Octets) : Effect Nat := do
  let say (text : Octets) : Effect Nat := do
    put ((if verbose then name ++ text else name) ++ ['\n'])
    return 0
  match ← meaning? name with
  | some .reserved => say " is a shell keyword".toList
  | some (.abbreviation text) =>
    if verbose then say (" is an alias for ".toList ++ text)
    else
      put ("alias ".toList ++ Builtin.aliasLine name text)
      return 0
  | some .function => say " is a shell function".toList
  | some .special => say " is a special shell builtin".toList
  | some .builtin => say " is a shell builtin".toList
  | some (.program path) =>
    put ((if verbose then name ++ " is ".toList ++ path else path) ++ ['\n'])
    return 0
  | none =>
    if verbose then put (name ++ ": not found\n".toList)
    return 127

/-- Carry out a step again and again, as long as it says what to go on with, but at most so many
times. -/
def iterate {α : Type} (step : α → Effect (Option α)) : (times : Nat) → α → Effect Unit
  | 0, _ => return
  | times + 1, a => do
    match ← step a with
    | none => return
    | some b => iterate step times b

/-- The number of functions that may be running, each called by the one before. -/
def callLimit : Nat := 1000

/-- Number of rounds that no loop that ends goes beyond. -/
def roundLimit : Nat := 2 ^ 62

mutual

/-- The segments of a word. -/
def expandPieces : Nat → (inAssignment : Bool) → Word → Effect (List Segment)
  | 0, _, _ => throw (.killed 11)
  | fuel + 1, inAssignment, word => do
    let (start, word) := expandTilde (← process) inAssignment word
    let mut done := start.reverse
    for piece in word do
      done := (← expandPiece fuel piece).reverse ++ done
    return done.reverse

def expandPiece : Nat → Piece → Effect (List Segment)
  | 0, _ => throw (.killed 11)
  | _ + 1, .plain text => return [.fixed false text]
  | _ + 1, .quoted text => return [.fixed true text, .mark]
  | fuel + 1, .parameter q name use => expandParameter fuel q name use
  | fuel + 1, .output q script => do
    let text ← outputOf fuel script
    return if q then [.fixed true text, .mark] else [.loose text]
  | fuel + 1, .arithmetic q expression => do
    let text := Segment.text (← expandPieces fuel false expression)
    let p ← process
    match Arithmetic.evaluate (fun name => (parameter? p name).getD []) text with
    | .error e => fail (e.message text)
    | .ok (n, assigned) =>
      for (name, value) in assigned.reverse do assign name (Integer.print value)
      let text := Integer.print n
      return if q then [.fixed true text, .mark] else [.loose text]

/-- The segments of a parameter. -/
def expandParameter : Nat → Bool → Octets → Use → Effect (List Segment)
  | 0, _, _, _ => throw (.killed 11)
  | fuel + 1, q, name, use => do
    let p ← process
    let value := parameter? p name
    let found (empty : Bool) : Bool := value.any fun v => !(empty && v.isEmpty)
    let plain : List Segment := parameterSegments p q name (value.getD [])
    let required : Effect Unit := do
      if value.isNone ∧ p.options.contains 'u' then complainUnset name "parameter not set".toList
    match use with
    | .malformed => fail "Bad substitution".toList
    | .value =>
      required
      return plain
    | .length =>
      required
      let text := Text.decimal (value.getD []).length
      return if q then [.fixed true text, .mark] else [.loose text]
    | .fallback empty word =>
      if found empty then return plain else return loosened q (← expandPieces fuel false word)
    | .instead empty word =>
      if found empty then return loosened q (← expandPieces fuel false word)
      else return if q then [.mark] else []
    | .assign empty word =>
      if found empty then return plain
      else
        let text ← expandText fuel word
        assign (← Builtin.checkName name) text
        return if q then [.fixed true text, .mark] else [.loose text]
    | .require empty word =>
      if found empty then return plain
      else if word.isEmpty then
        complainUnset name ("parameter not set" ++ if empty then " or null" else "").toList
      else complainUnset name (← expandText fuel word)
    | .trim atEnd longest pattern =>
      required
      let marked ← if value.isNone then pure [] else expandMarked fuel pattern
      let text := Pattern.trim atEnd longest (Pattern.ofMarked marked) (value.getD [])
      return if q then [.fixed true text, .mark] else [.loose text]

/-- The characters of a word that is not split into fields. -/
def expandMarked : Nat → Word → Effect (List Pattern.Marked)
  | 0, _ => throw (.killed 11)
  | fuel + 1, word => do
    let segments ← expandPieces fuel false word
    let p ← process
    return Segment.marked (segments.map fun
      | .separate values => .fixed true (Octets.joined (joint p) values)
      | .loose text =>
        .loose (if text.contains '\x00' then Octets.joined (joint p) (Octets.splitAt '\x00' text)
          else text)
      | s => s)

/-- The text of a word that is not split into fields. -/
def expandText : Nat → Word → Effect Octets
  | 0, _ => throw (.killed 11)
  | fuel + 1, word => return (← expandMarked fuel word).map Prod.fst

/-- The value of an assignment, in which names may stand behind tildes and colons. -/
def expandValue : Nat → Word → Effect Octets
  | 0, _ => throw (.killed 11)
  | fuel + 1, word => do
    let cut : Word := word.flatMap fun
      | .plain text =>
        ((Octets.splitAt ':' text).map Piece.plain).intersperse (.plain [':'])
      | piece => [piece]
    let p ← process
    let (start, cut) := expandTilde p true cut
    let step : Word × Bool → Piece → Word × Bool
      | (done, afterColon), .plain ('~' :: text) =>
        if afterColon then
          let (segments, rest) := expandTilde p true [.plain ('~' :: text)]
          (rest.reverse ++ (segments.map fun s => Piece.quoted (Segment.text [s])).reverse ++ done,
            false)
        else (.plain ('~' :: text) :: done, false)
      | (done, _), piece =>
        (piece :: done, match piece with
          | .plain [':'] => true
          | _ => false)
    let (cut, _) := cut.foldl step ([], false)
    return Segment.text start ++ (← expandText fuel cut.reverse)

/-- The fields of a word. -/
def expandFields : Nat → Word → Effect (List Octets)
  | 0, _ => throw (.killed 11)
  | fuel + 1, word => do
    let segments ← expandPieces fuel false word
    let p ← process
    let fields := Fields.ofSegments (separators p) segments
    if p.options.contains 'f' then return fields.map fun f => f.map Prod.fst
    else
      let folder := (← world).folder
      return fields.flatMap (Listing.ofPattern folder p.place)

/-- The fields of the words of a command. -/
def expandCommand : Nat → List Octets → List Word → Effect (List Octets)
  | 0, _, _ => throw (.killed 11)
  | _ + 1, done, [] => return done
  | fuel + 1, done, word :: rest => do
    let verbatim := Builtin.takesAssignments (String.ofList (commandOf done).1)
    let fields ←
      match verbatim, Reading.assignment? word with
      | true, some (name, value) => do pure [name ++ ['='] ++ (← expandValue fuel value)]
      | _, _ => expandFields fuel word
    expandCommand fuel (done ++ fields) rest

/-- The output of a script, without newlines at its end. -/
def outputOf : Nat → Script → Effect Octets
  | 0, _ => throw (.killed 11)
  | fuel + 1, script => do
    let o ← newPipe []
    let e ← inCopy fuel do
      openAs 1 o
      evaluate fuel ⟨false, true⟩ script
    let status ← statusOf e
    setProcess fun p => { p with outputStatus := status }
    let text := waiting (← world) o
    return Octets.trimEnd (· = '\n') (text.filter (· ≠ '\x00'))

/-- Expand what redirections lead to. -/
def expandTargets : Nat → List Redirection → Effect (List Target)
  | 0, _ => throw (.killed 11)
  | _ + 1, [] => return []
  | fuel + 1, r :: rest => do
    let target ←
      match r with
      | .file stream mode path => do pure (Target.file stream mode (← expandText fuel path))
      | .copy stream source => do copyTarget stream (← expandText fuel source)
      | .document stream number => do
        let word := ((← world).documents.lookup number).getD []
        match ← observe (expandText fuel word) with
        | .ok text => pure (Target.text stream text)
        | .error (.failure status) => pure (.failed status)
        | .error e => throw e
    return target :: (← expandTargets fuel rest)

/-- Carry out a body in a copy of the process. -/
def inCopy : Nat → Effect Unit → Effect ExitStatus
  | 0, _ => throw (.killed 11)
  | fuel + 1, body => do
    let _ ← takeSlot
    let before ← process
    let number := (← world).nextProcess
    setWorld fun w => { w with nextProcess := number + 1 }
    setProcess fun p =>
      { p with
        number := number
        ancestors := before.number :: before.ancestors
        children := []
        traps := p.traps.filter (·.2 = [])
        leaving := none }
    let e ← conclude fuel (← observe body)
    setProcess fun _ => before
    return e

/-- End the process, with the trap for its end and with what it has started and not waited
for. -/
def conclude : Nat → Except Interrupt Unit → Effect ExitStatus
  | 0, _ => return .killed 11
  | fuel + 1, r => do
    let e ←
      match r with
      | .error (.killed signal) => pure (ExitStatus.killed signal)
      | .error (.replaced status) => pure (.exited status)
      | r => do
        let p ← process
        let status := match r with
          | .error (.exit none) => p.leaving.getD p.status
          | .error (.exit (some n)) => n
          | .error (.failure n) => n
          | _ => p.status
        match p.traps.lookup 0 with
        | none => pure (.exited status)
        | some action => do
          setProcess fun p =>
            { p with
              status := status
              leaving := some status
              traps := p.traps.filter (·.1 ≠ 0) }
          let source ← sourceOf action
          match ← observe (runText fuel .plain source) with
          | .error (.exit (some n)) => pure (.exited n)
          | .error (.failure n) => pure (.exited n)
          | .error (.killed signal) => pure (.killed signal)
          | .error (.replaced n) => pure (.exited n)
          | _ => pure (.exited status)
    let number := (← process).number
    runJobs fuel fun j => j.owner = number
    match e with
    | .exited code => return .exited (code % 256)
    | e => return e

/-- Carry out the waiting processes with a property, first come first. -/
def runJobs : Nat → (Job → Bool) → Effect Unit
  | 0, _ => return
  | fuel + 1, p => do
    match (← world).waiting.find? p with
    | none => return
    | some j =>
      setWorld fun w =>
        { w with waiting := w.waiting.filter (·.process.number ≠ j.process.number) }
      let before ← process
      setProcess fun _ => j.process
      let e ← conclude fuel (← observe (evaluate fuel ⟨false, true⟩ j.body))
      setProcess fun _ => before
      setWorld fun w => { w with ended := (j.process.number, e) :: w.ended }
      runJobs fuel p

/-- Carry out the actions for the signals that have arrived. -/
def deliver : Nat → Effect Unit
  | 0 => throw (.killed 11)
  | fuel + 1 => do
    let number := (← process).number
    let arrived := (← world).signals.filter (·.1 = number)
    if arrived.isEmpty then return
    setWorld fun w => { w with signals := w.signals.filter (·.1 ≠ number) }
    for (_, signal) in arrived.mergeSort fun a b => a.2 ≤ b.2 do
      let p ← process
      match p.traps.lookup signal with
      | none => unless harmless.contains signal do throw (.killed signal)
      | some action =>
        if unstoppable.contains signal then throw (.killed signal)
        let status := p.leaving.getD p.status
        setProcess fun p => { p with leaving := some status }
        let source ← sourceOf action
        let r ← observe (runText fuel .plain source)
        setProcess fun q => { q with leaving := p.leaving }
        resume r
        setStatus status

/-- Carry out the next line of a source; what is left of it, if there was a line. -/
def runLine : Nat → Mode → Source → Effect (Option Source)
  | 0, _, _ => throw (.killed 11)
  | fuel + 1, m, source => do
    match (source.withAliases (← process).aliases).readLine with
    | .error e =>
      showLines source e.left
      failReading e
    | .ok (none, rest) =>
      showLines source rest.left
      return none
    | .ok (some script, rest) =>
      showLines source rest.left
      let source ← keepDocuments rest
      evaluate fuel { m with isLast := m.isLast && source.isAtEnd } script
      return some source

/-- Carry out the lines of a source. Where there are none, the status is that of success. -/
def runText : Nat → Mode → Source → Effect Unit
  | 0, _, _ => throw (.killed 11)
  | fuel + 1, m, source => do
    match ← runLine fuel m source with
    | none => setStatus 0
    | some rest => iterate (runLine fuel m) (rest.rest.length + 1) rest

def evaluate : Nat → Mode → Script → Effect Unit
  | 0, _, _ => throw (.killed 11)
  | fuel + 1, m, script => do
    if (← process).options.contains 'n' then return
    deliver fuel
    match script with
    | .nothing => return
    | .simple line assignments words redirections =>
      setProcess fun p => { p with line := line, outputStatus := 0 }
      runSimple fuel m assignments words redirections
      deliver fuel
      checkStatus m
    | .redirected line body redirections =>
      setProcess fun p => { p with line := line }
      let targets ← expandTargets fuel redirections
      keepingStreams do
        if ← redirectAll targets then evaluate fuel m.inner body
    | .subshell line body redirections =>
      setProcess fun p => { p with line := line }
      let targets ← expandTargets fuel redirections
      let inside (m : Mode) : Effect Unit := do
        if ← redirectAll targets then evaluate fuel m body
        else throw (.failure (← process).status)
      if m.isLast ∧ (← process).traps.isEmpty then inside m
      else
        let e ← inCopy fuel (inside { m with isLast := true })
        setStatus (← statusOf e)
      deliver fuel
      checkStatus m
    | .background line body =>
      setProcess fun p => { p with line := line }
      let slot ← takeSlot
      let p ← process
      let number := (← world).nextProcess
      let w ← world
      let started : Process :=
        { p with
          number := number
          ancestors := p.number :: p.ancestors
          children := []
          traps := p.traps.filter (·.2 = [])
          leaving := none
          streams := (0, w.opened.size) :: p.streams.filter (·.1 ≠ 0) }
      setWorld fun w =>
        { w with
          nextProcess := number + 1
          opened := w.opened.push ⟨.device .null, 0, false, true, false⟩
          waiting := w.waiting ++ [⟨p.number, started, body⟩] }
      setProcess fun p =>
        { p with
          background := some number
          children := ⟨slot, number, false⟩ :: p.children
          status := 0 }
    | .pipe stages =>
      runPipe fuel { m with isLast := true } none stages
      deliver fuel
      checkStatus m
    | .negated body =>
      evaluate fuel .condition body
      setStatus (if (← process).status = 0 then 1 else 0)
    | .both left right =>
      evaluate fuel .condition left
      if (← process).status = 0 then evaluate fuel m right
    | .either left right =>
      evaluate fuel .condition left
      if (← process).status ≠ 0 then evaluate fuel m right
    | .sequence left right =>
      evaluate fuel m.inner left
      evaluate fuel m right
    | .choice condition consequence alternative =>
      evaluate fuel .condition condition
      if (← process).status = 0 then evaluate fuel m consequence
      else
        match alternative with
        | some body => evaluate fuel m body
        | none => setStatus 0
    | .loop expected condition body =>
      inLoop (iterate (runRound fuel m.inner expected condition body) roundLimit 0)
    | .each line name words body =>
      setProcess fun p => { p with line := line }
      let mut values := []
      for w in words do values := values ++ (← expandFields fuel w)
      setStatus 0
      let round (rest : List Octets) : Effect (Option (List Octets)) := do
        match rest with
        | [] => return none
        | value :: rest =>
          assign name value
          match ← loopPart (evaluate fuel m.inner body) with
          | .finished => return none
          | .next => return some rest
      let items := values
      inLoop (iterate round (items.length + 1) items)
    | .select line word cases =>
      setProcess fun p => { p with line := line }
      let text ← expandText fuel word
      runCases fuel m text cases
    | .define line name body =>
      setProcess fun p =>
        { p with
          line := line
          status := 0
          functions := (name, body) :: p.functions.filter (·.1 ≠ name) }

/-- One round of a loop, behind rounds the last of which has left a status: the new status, if
another round follows. -/
def runRound : Nat → Mode → Bool → Script → Script → Nat → Effect (Option Nat)
  | 0, _, _, _, _, _ => throw (.killed 11)
  | fuel + 1, m, expected, condition, body, status => do
    let first ← loopPart do
      evaluate fuel .condition condition
      if ((← process).status = 0) ≠ expected then throw (.break 1)
    match first with
    | .finished =>
      setStatus status
      return none
    | .next =>
      match ← loopPart (evaluate fuel m body) with
      | .finished => return none
      | .next => return some (← process).status

/-- Carry out the first case that fits a text. -/
def runCases : Nat → Mode → Octets → List (List Word × Script) → Effect Unit
  | 0, _, _, _ => throw (.killed 11)
  | _ + 1, _, _, [] => setStatus 0
  | fuel + 1, m, text, (patterns, body) :: rest => do
    let mut found := false
    for pattern in patterns do
      unless found do
        let marked ← expandMarked fuel pattern
        found := Pattern.fits (Pattern.ofMarked marked) text
    if found then
      match body with
      | .nothing => setStatus 0
      | body => evaluate fuel m body
    else runCases fuel m text rest

/-- Carry out the stages of a pipe, the first of which reads what was written before. -/
def runPipe : Nat → Mode → Option Opened → List Script → Effect Unit
  | 0, _, _, _ => throw (.killed 11)
  | _ + 1, _, _, [] => return
  | fuel + 1, m, before, stage :: rest => do
    let after ← if rest.isEmpty then pure none else some <$> newPipe []
    let e ← inCopy fuel do
      if let some o := before then openAs 0 o
      if let some o := after then openAs 1 o
      evaluate fuel m stage
    let status ← statusOf e
    match rest with
    | [] => setStatus status
    | rest => runPipe fuel m after rest

def runSimple : Nat → Mode → List (Octets × Word) → List Word → List Redirection → Effect Unit
  | 0, _, _, _, _ => throw (.killed 11)
  | fuel + 1, m, assignments, words, redirections => do
    let args ← expandCommand fuel [] words
    let targets ← expandTargets fuel redirections
    let before := (← process).streams
    let values : Effect (List (Octets × Octets)) :=
      assignments.mapM fun (name, word) => do
        let value ← expandValue fuel word
        return (name, value)
    match args with
    | [] =>
      keepingStreams do
        if ← redirectAll targets then
          let values ← assignments.mapM fun (name, word) => do
            let value ← expandValue fuel word
            assign name value
            return (name, value)
          trace fuel before values []
          setStatus (← process).outputStatus
    | words =>
      let (name, viaCommand, args) := commandOf words
      let p ← process
      let text := String.ofList name
      let function := if viaCommand then none else p.functions.lookup name
      let isSpecial := function.isNone && Builtin.isSpecial text && !viaCommand
      let keepsStreams := function.isNone && text = "exec" && !viaCommand
      let body : Effect Unit := do
        unless ← redirectAll targets do
          if isSpecial then throw (.failure (← process).status) else return
        let kept := (← process).bindings
        let values ← values
        for (name, value) in values do
          assign name value
          if !isSpecial ∨ (text = "exec" ∧ args ≠ []) then
            let v := ((← process).bindings.lookup name).getD ⟨none, false, false⟩
            storeVariable name (some { v with exported := true })
        trace fuel before values words
        let r ← observe (runCommand fuel m function isSpecial name args)
        unless isSpecial do
          for (name, _) in values do restoreVariable name (kept.lookup name)
        resume r
      if keepsStreams then body else keepingStreams body

/-- Trace a command, on the stream that complaints went to before the redirections. What stands
before it is expanded; where this fails it stands there as it is. -/
def trace : Nat → List (Nat × Nat) → List (Octets × Octets) → List Octets → Effect Unit
  | 0, _, _, _ => throw (.killed 11)
  | fuel + 1, streams, assignments, args => do
    let p ← process
    if p.options.contains 'x' then
      let lead := (valueOf? p "PS4".toList).getD []
      setProcess fun p => { p with options := p.options.filter (· ≠ 'x') }
      let r ← observe do
        match (← sourceOf lead).readWord with
        | .error e => failReading e
        | .ok (word, source) =>
          let _ ← keepDocuments source
          expandText fuel word
      setProcess fun q => { q with options := p.options, line := p.line }
      let lead ← match r with
        | .error (.failure _) => pure lead
        | r => resume r
      let words := assignments.map (fun (n, v) => n ++ ['='] ++ v) ++ args
      setProcess fun p => { p with streams := streams }
      putError (lead ++ Octets.joined [' '] words ++ ['\n'])
      setProcess fun q => { q with streams := p.streams }

/-- Carry out a command whose name is known. -/
def runCommand : Nat → Mode → Option Script → (isSpecial : Bool) → Octets → List Octets →
    Effect Unit
  | 0, _, _, _, _, _ => throw (.killed 11)
  | fuel + 1, m, some body, _, _, args => callFunction fuel m body args
  | fuel + 1, m, none, isSpecial, name, args => do
    let text := String.ofList name
    let builtin : Option Builtin :=
      match text with
      | "eval" =>
        some fun args => do
          let source ← sourceOf (Octets.joined [' '] args)
          runText fuel m.inner source
          return (← process).status
      | "." => some (runScriptFile fuel)
      | "exec" =>
        some fun args => do
          match ← Builtin.operands args with
          | [] => return 0
          | name :: args =>
            become fuel name args
            return (← process).status
      | "command" =>
        some fun args => do
          let (given, names) ← Builtin.options "pvV" "" (args.length + 1) args
          match names with
          | [] => return 0
          | name :: _ => describe (given.any (·.1 = 'V')) name
      | "type" =>
        some fun args => do
          let mut status := 0
          for name in args do status := max status (← describe true name)
          return status
      | "hash" =>
        some fun args => do
          let (given, names) ← Builtin.options "r" "" (args.length + 1) args
          if given ≠ [] then
            setProcess fun p => { p with found := [] }
            return 0
          else if names = [] then
            let listed := (← process).found.mergeSort fun a b => Builtin.foundPlace a.1 ≤
              Builtin.foundPlace b.1
            for (_, path) in listed do put (path ++ ['\n'])
            return 0
          else
            let mut status := 0
            for name in names do
              if (← commandNamed? name).isNone then
                complain (name ++ ": not found".toList)
                status := 1
            return status
      | "wait" => some (awaitJobs fuel)
      | text => Builtin.named? (callOf name) text
    match builtin with
    | some b => runBuiltin fuel b isSpecial name args
    | none =>
      if m.isLast ∧ (← process).traps.all (·.2 = []) then become fuel name args
      else
        let p ← process
        match Program.locate (← world).folder p.place (searchPath p) name with
        | .error (status, text) =>
          complain (name ++ ": ".toList ++ text)
          setStatus status
        | .ok (path, program) =>
          remember name path
          let e ← inCopy fuel do
            let status ← runProgram fuel program name args
            throw (.replaced status)
          setStatus (← statusOf e)

def runBuiltin : Nat → Builtin → (isSpecial : Bool) → Octets → List Octets → Effect Unit
  | 0, _, _, _, _ => throw (.killed 11)
  | _ + 1, b, isSpecial, name, args => do
    let before := (← process).command
    setProcess fun p => { p with command := some name, outputFailed := false }
    let r ← observe do
      let status ← b args
      if (← process).outputFailed then
        complain (name ++ ": I/O error".toList)
        return status ||| 1
      else return status
    setProcess fun p => { p with command := before, outputFailed := false }
    match r with
    | .ok status => setStatus status
    | .error (.failure status) => if isSpecial then throw (.failure status) else setStatus status
    | .error e => throw e

def callFunction : Nat → Mode → Script → List Octets → Effect Unit
  | 0, _, _, _ => throw (.killed 11)
  | fuel + 1, m, body, args => do
    let before ← process
    if callLimit ≤ before.saved.length then
      fail ("Maximum function recursion depth (".toList ++ Text.decimal callLimit ++
        ") reached".toList)
    setProcess fun p =>
      { p with
        arguments := args
        optionIndex := 1
        letter := 0
        loops := 0
        saved := ⟨[], none⟩ :: p.saved }
    let r ← observe (evaluate fuel m.inner body)
    let frame := (← process).saved.head?.getD ⟨[], none⟩
    setProcess fun p =>
      { p with
        arguments := before.arguments
        optionIndex := before.optionIndex
        letter := before.letter
        loops := before.loops
        saved := before.saved
        options := frame.options.getD p.options }
    for (name, value) in frame.locals do restoreVariable name value
    match r with
    | .error .return => return
    | r => resume r

/-- Carry out the script in a file. -/
def runScriptFile : Nat → List Octets → Effect Nat
  | 0, _ => throw (.killed 11)
  | fuel + 1, args => do
    match ← Builtin.operands args with
    | [] => return 0
    | path :: _ =>
      if !path.contains '/' then fail (path ++ ": not found".toList)
      let p ← process
      let contents ←
        match (← world).folder.resolveFrom p.place path.toText with
        | .ok (.file _ contents) => pure (Octets.ofBytes contents)
        | .ok (.device (.stream 0)) => do
          let s ← input 0
          leaveRest 0 s []
          pure s
        | .ok (.device _) | .ok (.directory _) => pure []
        | .ok (.vacant _) => fail ("cannot open ".toList ++ path ++ ": No such file".toList)
        | .error e => fail ("cannot open ".toList ++ path ++ ": ".toList ++ refusal false e)
      setProcess fun p => { p with command := some path }
      let source ← sourceOfFile contents
      match ← observe (runText fuel .plain source) with
      | .error .return => return (← process).status
      | r =>
        resume r
        return (← process).status

/-- Wait for processes in the background. -/
def awaitJobs : Nat → List Octets → Effect Nat
  | 0, _ => throw (.killed 11)
  | fuel + 1, args => do
    let owner := (← process).number
    let names ← Builtin.operands args
    runJobs fuel fun j => j.owner = owner
    let noteWaited (isMeant : Child → Bool) : Effect Unit :=
      setProcess fun p =>
        { p with children := p.children.map fun c =>
            if isMeant c then { c with waited := true } else c }
    if names = [] then
      noteWaited fun _ => true
      return 0
    else
      let mut status := 127
      for name in names do
        let child? ←
          match name with
          | '%' :: _ => some <$> Builtin.childNamed name
          | name => do
            let target ← number name
            pure ((← process).children.find? (·.number = target))
        if let some c := child? then
          if let some e := (← world).ended.lookup c.number then
            status ← if c.waited then pure (codeOf e) else statusOf e
            noteWaited (·.number = c.number)
      return status

/-- The process becomes a program, and ends with it. -/
def become : Nat → Octets → List Octets → Effect Unit
  | 0, _, _ => throw (.killed 11)
  | fuel + 1, name, args => do
    let p ← process
    match Program.locate (← world).folder p.place (searchPath p) name with
    | .error (status, text) =>
      complain (name ++ ": ".toList ++ text)
      throw (.exit (some status))
    | .ok (_, program) =>
      let status ← runProgram fuel program name args
      throw (.replaced status)

/-- Carry out a program in the running process. -/
def runProgram : Nat → Program → Octets → List Octets → Effect Nat
  | 0, _, _, _ => throw (.killed 11)
  | fuel + 1, program, name, args => do
    match program with
    | .tool tool => runTool tool name args
    | .pause tool =>
      runJobs fuel fun _ => true
      runTool tool name args
    | .shell =>
      let e ← runShell fuel name args
      match e with
      | .exited status => return status
      | .killed signal => throw (.killed signal)
    | .starter plan =>
      match plan (← callOf name args) with
      | .error report => runTool (fun _ => report) name args
      | .ok plan => runPlan fuel name plan
    | .finder =>
      let p ← process
      let mut status := 0
      for arg in args do
        match Program.locate (← world).folder p.place (searchPath p) arg with
        | .ok (path, _) => put (path ++ ['\n'])
        | .error _ => status := 1
      return status

/-- Carry out what a program leads to that starts other programs. -/
def runPlan : Nat → Octets → Plan → Effect Nat
  | 0, _, _ => throw (.killed 11)
  | fuel + 1, name, plan => do
    if plan.forks then leaveRest 0 (← input 0) []
    for (n, value) in plan.bindings do
      storeVariable n (value.map fun value => ⟨some value, true, false⟩)
    let mut status := 0
    for command in plan.commands do
      match command with
      | [] => status := 0
      | first :: rest =>
        let p ← process
        match Program.locate (← world).folder p.place (valueOf? p "PATH".toList) first with
        | .error (s, _) =>
          let reason := if s = 127 then OsError.noEntry else OsError.denied
          putError (name ++ ": ".toList ++ plan.refusal first ++ ": ".toList ++
            reason.reason.toList ++ ['\n'])
          return s
        | .ok (_, program) =>
          if !plan.forks then status := ← runProgram fuel program first rest
          else
            let e ← inCopy fuel do
              openAs 0 ⟨.device .null, 0, false, true, false⟩
              let status ← runProgram fuel program first rest
              throw (.replaced status)
            match plan.combine status e with
            | .ok s => status := s
            | .error (complaint, s) =>
              putError (name ++ ": ".toList ++ first ++ ": ".toList ++ complaint ++ ['\n'])
              return s
    return status

/-- Carry out a shell in the running process. -/
def runShell : Nat → Octets → List Octets → Effect ExitStatus
  | 0, _, _ => throw (.killed 11)
  | fuel + 1, name, args => do
    becomeShell name
    let body : Effect Unit := do
      let settings ← Builtin.applyOptions true (args.length + 1) args
      let readsInput := (← process).options.contains 's'
      match settings.wantsScript, settings.rest with
      | true, [] => fail "-c requires an argument".toList
      | true, script :: rest =>
        setProcess fun p =>
          { p with name := rest.head?.getD name, arguments := rest.tail }
        let source ← sourceOf script
        runText fuel .plain source
        if readsInput then runInput fuel
      | false, rest =>
        match readsInput, rest with
        | false, path :: rest =>
          let p ← process
          let contents ←
            match (← world).folder.resolveFrom p.place path.toText with
            | .ok (.file _ contents) => pure (Octets.ofBytes contents)
            | .ok (.device (.stream 0)) => do
              let s ← input 0
              leaveRest 0 s []
              pure s
            | .ok (.device _) => pure []
            | .ok (.directory _) => pure []
            | .ok (.vacant _) => fail ("cannot open ".toList ++ path ++ ": No such file".toList)
            | .error e => fail ("cannot open ".toList ++ path ++ ": ".toList ++ refusal false e)
          setProcess fun p => { p with name := path, arguments := rest }
          let source ← sourceOfFile contents
          runText fuel .plain source
        | _, rest =>
          setProcess fun p => { p with arguments := rest }
          runInput fuel
    conclude fuel (← observe body)

/-- Carry out the script that the input holds. -/
def runInput : Nat → Effect Unit
  | 0 => throw (.killed 11)
  | fuel + 1 => do
    let s ← input 0
    leaveRest 0 s []
    let source ← sourceOfFile s
    match ← observe (runText fuel .plain source) with
    | .error .return => return
    | r => resume r

end

end Provenance.Shell

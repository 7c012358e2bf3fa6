import Provenance.Folder
import Provenance.Shell.Arithmetic
import Provenance.Shell.Reading

/-!
# The machine of the shell

What a running script changes: files and open streams, which all processes share, and what
belongs to the process alone. One process runs at a time. The left side of a pipe writes into
a queue of bytes from which the right side reads when the left side has ended.
-/

namespace Provenance.Shell

/-- Bytes that wait to be read: those in front in order, and later ones in reverse. -/
structure Pipe where
  front : Octets
  later : List Octets

namespace Pipe

/-- A pipe in which some bytes wait. -/
def holding (s : Octets) : Pipe := ⟨s, []⟩

def contents (p : Pipe) : Octets :=
  if p.later.isEmpty then p.front else p.front ++ p.later.reverse.flatten

def push (p : Pipe) (s : Octets) : Pipe := { p with later := s :: p.later }

end Pipe

/-- What stands behind an open stream. -/
inductive Channel
  | pipe (index : Nat)
  | file (path : List String)
  | directory (d : Directory)
  | device (d : Device)
  deriving DecidableEq, Repr

/-- An open stream: its channel, where reading or writing goes on in a file, and what is
allowed. -/
structure Opened where
  channel : Channel
  offset : Nat
  appends : Bool
  readable : Bool
  writable : Bool

/-- A variable; one without a value may still be exported or protected. -/
structure Variable where
  value : Option Octets
  exported : Bool
  constant : Bool

/-- What a running function has made local: variables as they were before, and the options, if they
are to be restored. -/
structure Frame where
  locals : List (Octets × Option Variable)
  options : Option (List Char)

/-- A process in the background, as the shell that has started it knows it. -/
structure Child where
  slot : Nat
  number : Nat
  /-- The shell has waited for it. -/
  waited : Bool

/-- What belongs to one process. -/
structure Process where
  number : Nat
  /-- The number of the shell that the process is a part of. -/
  shell : Nat
  /-- The processes that this one was started by, the last one first. -/
  ancestors : List Nat
  name : Octets
  arguments : List Octets
  bindings : List (Octets × Variable)
  functions : List (Octets × Script)
  /-- Words that stand for texts, in the order in which they were given. -/
  aliases : List (Octets × Octets)
  /-- The open stream behind each number. -/
  streams : List (Nat × Nat)
  options : List Char
  status : Nat
  /-- Status of the last output that was taken into a word of the running command. -/
  outputStatus : Nat
  background : Option Nat
  /-- Processes in the background, the last one first. -/
  children : List Child
  /-- Programs that have been found, with their paths. -/
  found : List (Octets × Octets)
  /-- Limits that were set, by their letters and whether they are hard. -/
  limits : List ((Char × Bool) × Option Nat)
  line : Nat
  /-- The built-in command that is running. -/
  command : Option Octets
  /-- What signals lead to; 0 stands for the end of the process. -/
  traps : List (Nat × Octets)
  place : Directory
  /-- What is to be restored at the end of each running function, the innermost first. -/
  saved : List Frame
  /-- Number of loops around the running command. -/
  loops : Nat
  /-- The argument that is looked at for options next, counted from 1. -/
  optionIndex : Nat
  /-- Where the next letter is in the argument before that, behind those already read; or 0. -/
  letter : Nat
  /-- The status with which the process ends or goes on when the running trap is done. -/
  leaving : Option Nat
  /-- Some output of the running command could not be written. -/
  outputFailed : Bool
  /-- The permissions that new files are not given. -/
  mask : Nat

/-- A process that has not begun: it waits until somebody waits for it, or until the process that
has started it ends. -/
structure Job where
  owner : Nat
  process : Process
  body : Script

/-- What all processes share. -/
structure World where
  folder : Folder
  pipes : Array Pipe
  opened : Array Opened
  documents : List (Nat × Word)
  nextDocument : Nat
  nextProcess : Nat
  /-- Signals that were sent to processes. -/
  signals : List (Nat × Nat)
  /-- Processes in the background that have not begun, first come first. -/
  waiting : List Job
  /-- Processes that were in the background and have ended, with their statuses. -/
  ended : List (Nat × ExitStatus)

/-- The machine as the running process sees it. -/
structure Machine where
  world : World
  process : Process

/-- Why the commands that follow are not carried out. -/
inductive Interrupt
  | break (loops : Nat)
  | continue (loops : Nat)
  | return
  /-- The process ends with a status, or with the one that it has already. -/
  | exit (status : Option Nat)
  /-- A command has failed in such a way that the shell ends, unless the command is one that
  may fail. -/
  | failure (status : Nat)
  /-- The program of the process has been replaced by one that has ended. -/
  | replaced (status : Nat)
  | killed (signal : Nat)

/-- What a process does to the machine. -/
abbrev Effect := ExceptT Interrupt (StateM Machine)

namespace Effect

/-! ## Streams -/

def process : Effect Process := return (← get).process

def setProcess (f : Process → Process) : Effect Unit :=
  modify fun m => { m with process := f m.process }

def world : Effect World := return (← get).world

def setWorld (f : World → World) : Effect Unit := modify fun m => { m with world := f m.world }

/-- The open stream behind a number, with its index. -/
def opened? (stream : Nat) : Effect (Option (Nat × Opened)) := do
  let m ← get
  match m.process.streams.lookup stream with
  | some index => return m.world.opened[index]?.map (index, ·)
  | none => return none

/-- Open a stream and put it behind a number. -/
def openAs (stream : Nat) (o : Opened) : Effect Unit :=
  modify fun m =>
    { m with
      world := { m.world with opened := m.world.opened.push o }
      process := { m.process with
        streams := (stream, m.world.opened.size) :: m.process.streams.filter (·.1 ≠ stream) } }

/-- Put what stands behind one number behind another as well. -/
def copyStream (stream index : Nat) : Effect Unit :=
  setProcess fun p => { p with streams := (stream, index) :: p.streams.filter (·.1 ≠ stream) }

def closeStream (stream : Nat) : Effect Unit :=
  setProcess fun p => { p with streams := p.streams.filter (·.1 ≠ stream) }

/-- A new pipe, which can be read and written. -/
def newPipe (contents : Octets) : Effect Opened := do
  let index := (← world).pipes.size
  setWorld fun w => { w with pipes := w.pipes.push (.holding contents) }
  return ⟨.pipe index, 0, false, true, true⟩

/-- All bytes that can be read from an open stream. -/
def waiting (w : World) (o : Opened) : Octets :=
  if !o.readable then []
  else
    match o.channel with
    | .pipe index => (w.pipes[index]?.map Pipe.contents).getD []
    | .file path => ((w.folder.lookup? path).map fun b => Octets.ofBytes (b.drop o.offset)).getD []
    | .device .zero | .device .full => List.replicate Octets.endless '\x00'
    | _ => []

/-- All bytes that can be read from a stream. -/
def input (stream : Nat) : Effect Octets := do
  match ← opened? stream with
  | some (_, o) => return waiting (← world) o
  | none => return []

/-- Leave so many bytes of a stream unread as the rest has, which is the end of what could be
read. -/
def leaveRest (stream : Nat) (before rest : Octets) : Effect Unit := do
  match ← opened? stream with
  | some (index, o) =>
    match o.channel with
    | .pipe i => setWorld fun w => { w with pipes := w.pipes.setIfInBounds i (.holding rest) }
    | .file _ =>
      let offset := o.offset + (before.length - rest.length)
      setWorld fun w =>
        { w with opened := w.opened.setIfInBounds index { o with offset := offset } }
    | _ => return
  | none => return

/-- Contents with some bytes written at an offset. -/
def splice (contents : List UInt8) (offset : Nat) (bytes : List UInt8) : List UInt8 :=
  contents.take offset ++ List.replicate (offset - contents.length) 0 ++ bytes ++
    contents.drop (offset + bytes.length)

/-- Write to a stream; `false` if this is not possible. -/
def write (stream : Nat) (s : Octets) : Effect Bool := do
  match ← opened? stream with
  | none => return false
  | some (index, o) =>
    if !o.writable then return false
    else
      match o.channel with
      | .pipe i =>
        setWorld fun w => { w with pipes := w.pipes.modify i (·.push s) }
        return true
      | .file path =>
        let w ← world
        let contents := (w.folder.lookup? path).getD []
        let offset := if o.appends then contents.length else o.offset
        setWorld fun w =>
          { w with
            folder := w.folder.put path (splice contents offset s.toBytes)
            opened := w.opened.setIfInBounds index { o with offset := offset + s.length } }
        return true
      | .device .full => return s.isEmpty
      | .device (.stream _) | .directory _ => return false
      | .device _ => return true

/-- Write to the standard output, and remember whether this was possible. -/
def put (s : Octets) : Effect Unit := do
  unless ← write 1 s do setProcess fun p => { p with outputFailed := true }

/-- Write to the standard error output. -/
def putError (s : Octets) : Effect Unit := do let _ ← write 2 s

/-- What a path among the devices stands for, if it is another name of an open stream. -/
def alias? (path : Octets) : Option Nat :=
  match String.ofList path with
  | "/dev/stdin" => some 0
  | "/dev/stdout" => some 1
  | "/dev/stderr" => some 2
  | text =>
    if text.startsWith "/dev/fd/" then (text.drop 8).toString.toNat?
    else if text.startsWith "/proc/self/fd/" then (text.drop 14).toString.toNat?
    else none

/-! ## Complaints -/

/-- A complaint of the shell as it is written. -/
def complaint (p : Process) (text : Octets) : Octets :=
  p.name ++ ": ".toList ++ Provenance.Text.decimal p.line ++ ": ".toList ++
    (p.command.elim [] fun c => c ++ ": ".toList) ++ text ++ ['\n']

def complain (text : Octets) : Effect Unit := do putError (complaint (← process) text)

/-- Complain and give up with a status. -/
def failWith {α : Type} (status : Nat) (text : Octets) : Effect α := do
  complain text
  throw (.failure status)

def fail {α : Type} (text : Octets) : Effect α := failWith 2 text

/-! ## Variables -/

/-- The text that separates fields where no variable says otherwise. -/
def defaultSeparators : Octets := [' ', '\t', '\n']

def valueOf? (p : Process) (name : Octets) : Option Octets :=
  (p.bindings.lookup name).bind Variable.value

/-- Where programs are looked for if nothing says otherwise. -/
def usualSearchPath : Octets :=
  "/usr/local/sbin:/usr/local/bin:/usr/sbin:/usr/bin:/sbin:/bin".toList

/-- Where a shell looks for programs: nowhere if that is unset. -/
def searchPath (p : Process) : Option Octets := some ((valueOf? p "PATH".toList).getD [])

/-- Replace or add a variable. -/
def storeVariable (name : Octets) (v : Option Variable) : Effect Unit :=
  setProcess fun p =>
    let others := p.bindings.filter (·.1 ≠ name)
    { p with bindings := v.elim others fun v => (name, v) :: others }

/-- Look for options from an argument on. -/
def restartOptions (index : Nat) : Effect Unit :=
  setProcess fun p => { p with optionIndex := max index 1, letter := 0 }

/-- The number that a text is. -/
def number (text : Octets) : Effect Nat :=
  match Integer.read? true false text with
  | some n =>
    if 0 ≤ n ∧ n < 2 ^ 31 then return n.toNat else fail ("Illegal number: ".toList ++ text)
  | none => fail ("Illegal number: ".toList ++ text)

/-- Do what a change of a variable leads to. -/
def noteChange (name : Octets) (value : Option Octets) : Effect Unit := do
  if name = "OPTIND".toList then restartOptions (← number (value.getD []))
  if name = "PATH".toList then setProcess fun p => { p with found := [] }

/-- Set a variable, unless it is protected. -/
def assign (name value : Octets) : Effect Unit := do
  let p ← process
  match p.bindings.lookup name with
  | some v =>
    if v.constant then fail (name ++ ": is read only".toList)
    noteChange name (some value)
    storeVariable name (some { v with value := some value })
  | none =>
    noteChange name (some value)
    storeVariable name (some ⟨some value, p.options.contains 'a', false⟩)

/-- Replace or add a variable, with what this leads to. -/
def restoreVariable (name : Octets) (v : Option Variable) : Effect Unit := do
  noteChange name (v.bind Variable.value)
  storeVariable name v

/-- The variables that other programs are given. -/
def environment (p : Process) : List (Octets × Octets) :=
  p.bindings.filterMap fun (name, v) =>
    match v.exported, v.value with
    | true, some value => some (name, value)
    | _, _ => none

/-! ## Processes -/

/-- The place in the list of processes in the background that the next process takes. It may be that
of one that has ended and was waited for, which is then forgotten. -/
def takeSlot : Effect Nat := do
  let ended := (← world).ended
  let children := (← process).children
  let isFree (slot : Nat) : Bool :=
    children.all fun c => c.slot ≠ slot || (c.waited && (ended.lookup c.number).isSome)
  let slot := 1 + ((List.range children.length).find? fun n => isFree (n + 1)).getD children.length
  setProcess fun p => { p with children := p.children.filter (·.slot ≠ slot) }
  return slot

/-! ## Signals -/

/-- The names of signals, by their numbers from 1 on. A signal without a name goes by its number,
and those that are left to programs are counted from both ends. -/
def signalNames : List String :=
  ["HUP", "INT", "QUIT", "ILL", "TRAP", "ABRT", "BUS", "FPE", "KILL", "USR1", "SEGV", "USR2",
    "PIPE", "ALRM", "TERM", "16", "CHLD", "CONT", "STOP", "TSTP", "TTIN", "TTOU", "URG", "XCPU",
    "XFSZ", "VTALRM", "PROF", "WINCH", "IO", "PWR", "SYS", "32", "33", "RTMIN"] ++
    (List.range 15).map (fun i => "RTMIN+" ++ toString (i + 1)) ++
    (List.range 14).map (fun i => "RTMAX-" ++ toString (14 - i)) ++ ["RTMAX"]

/-- The number of a signal by name or number. -/
def signal? (text : Octets) : Option Nat :=
  if text ≠ [] ∧ text.all Char.isDigit then
    let n := Integer.valueOf 10 text
    if n ≤ 64 then some n else none
  else
    let upper := String.ofList (text.map Char.toUpper)
    if upper = "EXIT" then some 0
    else (signalNames.findIdx? fun n => n = upper).map (· + 1)

/-- Signals that do nothing where nothing else is said. -/
def harmless : List Nat := [17, 18, 23, 28]

/-- Signals whose meaning cannot be changed. -/
def unstoppable : List Nat := [9, 19]

/-- What a shell says about a command that a signal has ended, if it says anything. -/
def obituary? (signal : Nat) : Option String :=
  match signal with
  | 1 => some "Hangup"
  | 3 => some "Quit"
  | 4 => some "Illegal instruction"
  | 5 => some "Trace/breakpoint trap"
  | 6 => some "Aborted"
  | 7 => some "Bus error"
  | 8 => some "Floating point exception"
  | 9 => some "Killed"
  | 10 => some "User defined signal 1"
  | 11 => some "Segmentation fault"
  | 12 => some "User defined signal 2"
  | 14 => some "Alarm clock"
  | 15 => some "Terminated"
  | 16 => some "Stack fault"
  | 24 => some "CPU time limit exceeded"
  | 25 => some "File size limit exceeded"
  | 26 => some "Virtual timer expired"
  | 27 => some "Profiling timer expired"
  | 29 => some "I/O possible"
  | 30 => some "Power failure"
  | 31 => some "Bad system call"
  | signal =>
    if signal < 32 then none
    else if signal < 34 then some ("Unknown signal " ++ toString signal)
    else some ("Real-time signal " ++ toString (signal - 34))

end Effect

end Provenance.Shell

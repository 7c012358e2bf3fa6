import Provenance.Text.Blank
import Provenance.Text.Utf8

/-!
# Files and programs

What the operating system says about a file that cannot be used and about a program that has
ended.
-/

namespace Provenance

/-- Why a file or program cannot be used. -/
inductive OsError
  | noEntry
  | badStream
  | denied
  | notDirectory
  | isDirectory
  | noSpace
  | nameTooLong
  | argumentsTooLong
  | brokenPipe
  | zeroByte
  | invalidText
  /-- Any other error, with its number if it has one. -/
  | other (reason : String) (number : Option Nat)
  deriving DecidableEq, Repr

namespace OsError

/-- What is wrong, without the number of the error. -/
def reason : OsError → String
  | .noEntry => "No such file or directory"
  | .badStream => "Bad file descriptor"
  | .denied => "Permission denied"
  | .notDirectory => "Not a directory"
  | .isDirectory => "Is a directory"
  | .noSpace => "No space left on device"
  | .nameTooLong => "File name too long"
  | .argumentsTooLong => "Argument list too long"
  | .brokenPipe => "Broken pipe"
  | .zeroByte => "nul byte found in provided data"
  | .invalidText => "stream did not contain valid UTF-8"
  | .other reason _ => reason

/-- The number of the error. Text that is malformed and arguments that cannot be passed on are no
errors of the system. -/
def number? : OsError → Option Nat
  | .noEntry => some 2
  | .badStream => some 9
  | .denied => some 13
  | .notDirectory => some 20
  | .isDirectory => some 21
  | .noSpace => some 28
  | .nameTooLong => some 36
  | .argumentsTooLong => some 7
  | .brokenPipe => some 32
  | .zeroByte | .invalidText => none
  | .other _ number => number

/-- What is shown to the user. -/
def message (e : OsError) : String :=
  match e.number? with
  | some n => e.reason ++ " (os error " ++ toString n ++ ")"
  | none => e.reason

/-- Whoever was to read has stopped reading. -/
def isBrokenPipe (e : OsError) : Bool := e.number? = some 32

end OsError

/-- The text of a file. -/
def textOf (contents : List UInt8) : Except OsError String :=
  match Text.Utf8.decode? contents with
  | some cs => .ok (String.ofList cs)
  | none => .error .invalidText

/-- How a program has ended. -/
inductive ExitStatus
  | exited (code : Nat)
  | killed (signal : Nat)
  deriving DecidableEq, Repr

namespace ExitStatus

def isSuccess : ExitStatus → Bool
  | .exited code => code == 0
  | .killed _ => false

/-- Names of the signals, from the first on. -/
def signalNames : List String :=
  ["SIGHUP", "SIGINT", "SIGQUIT", "SIGILL", "SIGTRAP", "SIGABRT", "SIGBUS", "SIGFPE", "SIGKILL",
    "SIGUSR1", "SIGSEGV", "SIGUSR2", "SIGPIPE", "SIGALRM", "SIGTERM", "SIGSTKFLT", "SIGCHLD",
    "SIGCONT", "SIGSTOP", "SIGTSTP", "SIGTTIN", "SIGTTOU", "SIGURG", "SIGXCPU", "SIGXFSZ",
    "SIGVTALRM", "SIGPROF", "SIGWINCH", "SIGIO", "SIGPWR", "SIGSYS"]

/-- The status as it is shown. -/
def text : ExitStatus → String
  | .exited code => "exit status: " ++ toString code
  | .killed signal =>
    "signal: " ++ toString signal ++
      ((signalNames[signal - 1]?).elim "" fun name => " (" ++ name ++ ")")

end ExitStatus

/-- A program that has ended, with all that it wrote. `unfed` tells why not all of its input could
be written to it. -/
structure Ended where
  status : ExitStatus
  out : List UInt8
  err : List UInt8
  unfed : Option OsError
  deriving DecidableEq, Repr

namespace Ended

/-- What a program complained about: its error output without blanks around it. -/
def complaint (e : Ended) : String :=
  String.ofList (Text.trim (Text.Utf8.decodeLossy e.err))

/-- What went wrong with the input of a program. A program need not read all of it. -/
def inputError? (e : Ended) : Option OsError := e.unfed.filter fun cause => !cause.isBrokenPipe

end Ended

/-- Why it is not known how a program has ended. -/
inductive RunError
  | notStarted (cause : OsError)
  | notAwaited (cause : OsError)
  deriving DecidableEq, Repr

end Provenance

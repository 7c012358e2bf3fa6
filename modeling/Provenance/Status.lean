import Provenance.Binary64.Shortest
import Provenance.Text.Decimal

/-!
# Status

The status bar says whether a compilation is running or how the last one ended, how long it
took and which generated line is highlighted. A diagnostic is hidden while compiling.
-/

namespace Provenance

/-- What is going on. -/
inductive Phase
  | compiling
  | failed
  | success
  deriving DecidableEq, Repr

/-- The word shown for a phase. -/
def Phase.text : Phase → String
  | .compiling => "Compiling"
  | .failed => "Failed"
  | .success => "Success"

structure Status where
  compiling : Bool
  diagnostic : Option String
  elapsed : Binary64
  mappedLine : Option UInt32
  deriving DecidableEq, Repr

namespace Status

/-- The status before anything was compiled. -/
def initial : Status := ⟨false, none, .zero, none⟩

def phase (s : Status) : Phase :=
  if s.compiling then .compiling
  else if s.diagnostic.isSome then .failed
  else .success

/-- The digits of an integer that is a floating point number: the fewest that read back as that
number, filled up with zeros. -/
def integerDigits (n : Nat) : List Char :=
  if n = 0 then ['0']
  else
    let d := (Binary64.ofNat n).shortest
    Text.decimal d.digits ++ List.replicate d.exponent.toNat '0'

/-- Milliseconds rounded to an integer and written in full, a half going away from zero. -/
def milliseconds (x : Binary64) : String :=
  if x.isFinite then String.ofList (integerDigits x.rounded) else "inf"

/-- The line of text in the status bar. -/
def text (s : Status) : String :=
  let diagnostic := if s.compiling then "" else s.diagnostic.elim "" (": " ++ ·)
  let elapsed := if s.elapsed.isPositive then " " ++ milliseconds s.elapsed ++ "ms" else ""
  let mapped := s.mappedLine.elim "" fun line => " Mapped: " ++ toString line
  s.phase.text ++ diagnostic ++ elapsed ++ mapped

end Status

end Provenance

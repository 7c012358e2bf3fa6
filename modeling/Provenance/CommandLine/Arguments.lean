/-!
# Arguments

The arguments of a subcommand are options with a value each, operands, and what follows two
dashes. An option is written `--name value` or `--name=value`, and each may be given once.
-/

namespace Provenance.CommandLine

/-- The arguments of a subcommand. `trailing` is what follows two dashes, if they occur. -/
structure Arguments where
  options : List (String × String)
  operands : List String
  trailing : Option (List String)
  deriving DecidableEq, Repr

namespace Arguments

/-- The argument could be taken for an option. A lone dash could not. -/
def looksLikeOption (arg : String) : Bool :=
  match arg.toList with
  | '-' :: _ :: _ => true
  | _ => false

/-- The name of an option and the value that is attached to it, if the argument is one. -/
def option? (arg : String) : Option (String × Option String) :=
  match arg.toList with
  | '-' :: '-' :: cs =>
    match cs.span (· ≠ '=') with
    | (name, '=' :: value) => some (String.ofList name, some (String.ofList value))
    | (name, _) => some (String.ofList name, none)
  | _ => none

/-- Add an option, which must not be given twice. -/
def addOption (name value : String) (a : Arguments) : Option Arguments :=
  if (a.options.lookup name).isSome then none
  else some { a with options := (name, value) :: a.options }

/-- Read arguments whose options are known. -/
def read (known : List String) : List String → Option Arguments
  | [] => some ⟨[], [], none⟩
  | "--" :: rest => some ⟨[], [], some rest⟩
  | arg :: rest =>
    match option? arg, rest with
    | some (name, some value), rest =>
      if name ∈ known then (read known rest).bind (addOption name value) else none
    | some (name, none), value :: rest =>
      if name ∈ known ∧ !looksLikeOption value then (read known rest).bind (addOption name value)
      else none
    | some (_, none), [] => none
    | none, rest =>
      if looksLikeOption arg then none
      else (read known rest).map fun a => { a with operands := arg :: a.operands }

end Arguments

end Provenance.CommandLine

import Provenance.Shell.Octets

/-!
# Scripts of the shell

A script is a tree of commands, and a word of a command is a sequence of pieces that are put
together when it is expanded. Quotes are gone from a word, but each piece remembers whether it
stood in them, for then it is neither split into fields nor taken as a pattern. A quoted piece
without text makes a word that is there, though it may be empty.
-/

namespace Provenance.Shell

/-- How a file is opened. -/
inductive Opening
  | read
  | write
  /-- Written to even where files are protected. -/
  | overwrite
  | append
  | update
  deriving DecidableEq, Repr

mutual

inductive Piece
  | plain (text : Octets)
  | quoted (text : Octets)
  | parameter (inQuotes : Bool) (name : Octets) (use : Use)
  /-- The output of a script. -/
  | output (inQuotes : Bool) (script : Script)
  | arithmetic (inQuotes : Bool) (expression : List Piece)

/-- What is made of the value of a parameter. -/
inductive Use
  | value
  | length
  /-- Another word where the parameter is not set; `empty` says that an empty value counts as
  not set, here and below. -/
  | fallback (empty : Bool) (word : List Piece)
  /-- Another word that the parameter is also set to. -/
  | assign (empty : Bool) (word : List Piece)
  /-- A complaint where the parameter is not set. -/
  | require (empty : Bool) (word : List Piece)
  /-- Another word where the parameter is set. -/
  | instead (empty : Bool) (word : List Piece)
  /-- The value without the shortest or longest part at one end that fits a pattern. -/
  | trim (atEnd longest : Bool) (pattern : List Piece)
  /-- Something that cannot be understood. -/
  | malformed

inductive Redirection
  | file (stream : Nat) (mode : Opening) (path : List Piece)
  /-- To what another stream leads to, or to nothing. -/
  | copy (stream : Nat) (source : List Piece)
  /-- From a text that follows in the script, by its number. -/
  | document (stream : Nat) (number : Nat)

inductive Script
  | simple (line : Nat) (assignments : List (Octets × List Piece)) (words : List (List Piece))
      (redirections : List Redirection)
  | redirected (line : Nat) (body : Script) (redirections : List Redirection)
  | subshell (line : Nat) (body : Script) (redirections : List Redirection)
  | background (line : Nat) (body : Script)
  | pipe (stages : List Script)
  | negated (body : Script)
  | both (left right : Script)
  | either (left right : Script)
  | sequence (left right : Script)
  /-- A choice, whose parts may be missing. -/
  | choice (condition consequence : Script) (alternative : Option Script)
  /-- Repeat the body as long as success of the condition is the given one. -/
  | loop (expected : Bool) (condition body : Script)
  | each (line : Nat) (name : Octets) (words : List (List Piece)) (body : Script)
  /-- The first body one of whose patterns fits a word. -/
  | select (line : Nat) (word : List Piece) (cases : List (List (List Piece) × Script))
  | define (line : Nat) (name : Octets) (body : Script)
  | nothing

end

abbrev Word := List Piece

instance : Inhabited Script := ⟨.nothing⟩

namespace Word

/-- The text of a word that is written without quotes, parameters and outputs. -/
def plain? : Word → Option Octets
  | [.plain text] => some text
  | _ => none

/-- Some of the word stood in quotes. -/
def hasQuotes (w : Word) : Bool :=
  w.any fun
    | .quoted _ => true
    | .parameter q _ _ => q
    | .output q _ => q
    | .arithmetic q _ => q
    | _ => false

end Word

end Provenance.Shell

import Provenance.Shell.Tool.Real
import Provenance.Shell.Tool.Words

/-!
# Programs that start others

What such a program does before it starts others, and which ones it starts.
-/

namespace Provenance.Shell

/-- What a program leads to that starts other programs. -/
structure Plan where
  /-- Variables that are set, or removed, before. -/
  bindings : List (Octets × Option Octets)
  /-- The commands in order. -/
  commands : List (List Octets)
  /-- The program has read all its input, waits for the commands, and does not become the last of
  them. -/
  forks : Bool
  /-- What is said of a command that cannot be started, up to the reason. -/
  refusal : Octets → Octets
  /-- The status so far and the end of a command make the next status, or they end the program
  with a complaint. -/
  combine : Nat → ExitStatus → Except (Octets × Nat) Nat

namespace Plan

/-- Become a command. -/
def become (command : List Octets) (refusal : Octets → Octets) : Plan :=
  ⟨[], [command], false, refusal, fun n _ => .ok n⟩

/-- Either a plan, or a report where nothing is started. -/
abbrev Outcome := Except Report Plan

/-- The name of a command in a message. -/
def plainly (command : Octets) : Octets := Call.curly command

/-- The name of a command that could not be run. -/
def failing (command : Octets) : Octets := "failed to run command ".toList ++ Call.curly command

/-- Change the environment. -/
def env (c : Call) : Outcome :=
  let long := [("ignore-environment", 'i'), ("unset", 'u'), ("null", '0')]
  match Given.read false ['i', '0', 'v'] ['u', 'C', 'S'] long (c.args.length + 1) c.args with
  | .error e => .error (c.refuseUsage 125 e)
  | .ok (given, rest) =>
    let o : Options := ⟨given⟩
    let (clears, rest) := match rest with
      | ['-'] :: rest => (true, rest)
      | rest => (o.has 'i', rest)
    let assignments := rest.takeWhile (·.contains '=')
    let set := assignments.map fun a =>
      (a.takeWhile (· ≠ '='), some ((a.dropWhile (· ≠ '=')).drop 1))
    let unset := (given.filterMap fun (l, v) => if l = 'u' then some (v, none) else none) ++
      (if clears then c.environment.map fun (n, _) => (n, none) else [])
    match rest.drop assignments.length with
    | [] =>
      let kept := c.environment.filter fun (n, _) =>
        unset.all (·.1 ≠ n) ∧ set.all (·.1 ≠ n)
      let all := kept ++ set.map fun (n, v) => (n, v.getD [])
      .error (c.report 0 (all.flatMap fun (n, v) => n ++ '=' :: v ++ ['\n']))
    | command => .ok { become command plainly with bindings := unset ++ set }

/-- Start a program without further ado, behind some options and operands. -/
def direct (withValue : String) (operands : Nat) (c : Call) : Outcome :=
  match Given.read false [] withValue.toList [("adjustment", 'n'), ("output", 'o')]
      (c.args.length + 1) c.args with
  | .error e => .error (c.refuseUsage 125 e)
  | .ok (_, rest) =>
    match rest.drop operands with
    | [] => .error (c.refuseUsage 125 "missing operand".toList)
    | command => .ok (become command failing)

/-- Start a program and end it when its time is over, which only comes if it waits for longer. -/
def timeout (c : Call) : Outcome :=
  let long := [("signal", 's'), ("kill-after", 'k'), ("preserve-status", 'p'),
    ("foreground", 'f')]
  let seconds (a : Octets) : Option Real :=
    match Real.take? a with
    | some (x, rest) => if rest = [] ∨ rest = ['s'] then some x else none
    | none => none
  match Given.read false ['p', 'f', 'v'] ['s', 'k'] long (c.args.length + 1) c.args with
  | .error e => .error (c.refuseUsage 125 e)
  | .ok (_, time :: command) =>
    match seconds time, command with
    | none, _ => .error (c.refuseUsage 125 ("invalid time interval ".toList ++ Call.curly time))
    | _, [] => .error (c.refuseUsage 125 "missing operand".toList)
    | some limit, command =>
      let isOver : Bool :=
        match command with
        | name :: t :: _ =>
          match (seconds t).map Real.magnitude, limit.magnitude with
          | some (.ratio a b), .ratio n d =>
            decide (Words.lastComponent name = "sleep".toList ∧ n ≠ 0 ∧ n * b < a * d)
          | _, _ => false
        | _ => false
      if isOver then .error (c.report 124 []) else .ok (become command failing)
  | .ok (_, []) => .error (c.refuseUsage 125 "missing operand".toList)

/-- The words of a text, in which quotes and backslashes keep characters together. -/
def wordsOf : Nat → (quote : Option Char) → (current : Option Octets) → Octets → List Octets
  | 0, _, current, _ => current.toList.map List.reverse
  | _ + 1, _, current, [] => current.toList.map List.reverse
  | fuel + 1, quote, current, c :: cs =>
    let put (d : Char) : Option Octets := some (d :: current.getD [])
    match quote with
    | some q =>
      if c = q then wordsOf fuel none (some (current.getD [])) cs else wordsOf fuel quote (put c) cs
    | none =>
      if c = '\x27' ∨ c = '"' then wordsOf fuel (some c) (some (current.getD [])) cs
      else if c = '\\' then
        match cs with
        | d :: cs => wordsOf fuel none (put d) cs
        | [] => wordsOf fuel none current []
      else if c = ' ' ∨ c = '\t' ∨ c = '\n' then
        current.toList.map List.reverse ++ wordsOf fuel none none cs
      else wordsOf fuel none (put c) cs

/-- Replace every occurrence of a text. -/
def replaceAll (mark put : Octets) : Nat → Octets → Octets
  | 0, s => s
  | _ + 1, [] => []
  | fuel + 1, c :: cs =>
    if mark ≠ [] ∧ mark.isPrefixOf (c :: cs) then
      put ++ replaceAll mark put fuel ((c :: cs).drop mark.length)
    else c :: replaceAll mark put fuel cs

/-- Cut a list into pieces of a length, at most `fuel` of them. -/
def chunks (n : Nat) : Nat → List Octets → List (List Octets)
  | 0, _ => []
  | _ + 1, [] => []
  | fuel + 1, l => l.take n :: chunks n fuel (l.drop n)

/-- Start a program with arguments that are read from the input. -/
def xargs (c : Call) : Outcome :=
  let long := [("null", '0'), ("no-run-if-empty", 'r'), ("max-args", 'n'), ("replace", 'I'),
    ("max-lines", 'L'), ("delimiter", 'd'), ("max-procs", 'P'), ("verbose", 't')]
  match Given.read false "0rtxp".toList "nILdPsE".toList long (c.args.length + 1) c.args with
  | .error e => .error (c.refuseUsage 1 e)
  | .ok (given, rest) =>
    let o : Options := ⟨given⟩
    let command := if rest = [] then ["echo".toList] else rest
    let separator : Option Char :=
      if o.has '0' then some '\x00'
      else (o.value? 'd').bind fun v => if v = "\\n".toList then some '\n' else v.head?
    let lines : List Octets :=
      match separator with
      | some d =>
        let pieces := Octets.splitAt d c.input
        if pieces.getLast? = some [] then pieces.dropLast else pieces
      | none => []
    let words := if separator.isSome then lines
      else wordsOf (2 * c.input.length + 2) none none c.input
    let number (l : Char) : Option Nat :=
      (o.value? l).map fun v => v.foldl (fun n d => n * 10 + (Text.digit? d).getD 0) 0
    let commands : List (List Octets) :=
      match o.value? 'I', number 'n', number 'L' with
      | some mark, _, _ =>
        let items := if separator.isSome then lines
          else
            ((Octets.lines c.input).map (·.dropWhile fun b => b = ' ' ∨ b = '\t')).filter (· ≠ [])
        items.map fun item => command.map fun w => replaceAll mark item (w.length + 1) w
      | none, some n, _ => (chunks (max 1 n) (words.length + 1) words).map (command ++ ·)
      | none, none, some n =>
        let groups := chunks (max 1 n) (c.input.length + 1)
          ((Octets.lines c.input).filter fun l => l.any fun b => b ≠ ' ' ∧ b ≠ '\t')
        groups.map fun ls =>
          command ++ ls.flatMap fun l => wordsOf (2 * l.length + 2) none none l
      | none, none, none => if words = [] then [] else [command ++ words]
    let commands := if commands = [] ∧ !o.has 'r' ∧ !o.has 'I' then [command] else commands
    .ok ⟨[], commands, true, id, fun n e =>
      match e with
      | .exited 0 => .ok n
      | .exited 255 => .error ("exited with status 255; aborting".toList, 124)
      | .exited _ => .ok 123
      | .killed s => .error ("terminated by signal ".toList ++ Text.decimal s, 125)⟩

end Plan

end Provenance.Shell

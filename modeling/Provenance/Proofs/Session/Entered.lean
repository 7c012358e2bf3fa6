import Mathlib.Data.List.Induction
import Provenance.Proofs.Session.Superseded

/-!
# What was entered

The text, its markup and the file name that a session shows depend on nothing but the commands that
it has handled: outcomes, the timer and the clock leave them alone (`entered_reactAll`). The last
edit determines the text and the markup, and the last change of the name determines the name
(`takeAll_eq`).
-/

namespace Provenance

namespace Command

/-- The text that a command puts in. -/
def text? : Command → Option String
  | .edit text => some text
  | _ => none

/-- The file name that a command puts in. -/
def fileName? : Command → Option String
  | .rename fileName => some fileName
  | _ => none

end Command

/-- The text of the last edit. -/
def lastText? (commands : List Command) : Option String :=
  (commands.filterMap Command.text?).getLast?

/-- The file name of the last change of the name. -/
def lastFileName? (commands : List Command) : Option String :=
  (commands.filterMap Command.fileName?).getLast?

/-- What a session shows of what was put in, and how it draws it. -/
structure Entered where
  renderer : Renderer
  language : String
  sourceText : String
  sourceMarkup : String
  fileName : String

namespace Entered

/-- What is shown after a command. -/
def take (i : Entered) : Command → Entered
  | .edit text =>
    { i with sourceText := text, sourceMarkup := Markup.render i.renderer text i.language }
  | .rename fileName => { i with fileName := fileName }
  | .moveCursor _ | .compileNow => i

/-- What is shown after some commands, first the oldest. -/
def takeAll (i : Entered) (commands : List Command) : Entered := commands.foldl take i

theorem takeAll_concat (i : Entered) (commands : List Command) (c : Command) :
    i.takeAll (commands ++ [c]) = (i.takeAll commands).take c := by
  rw [takeAll, List.foldl_append]
  rfl

/-- The last edit and the last change of the name determine what is shown. -/
theorem takeAll_eq (i : Entered) (commands : List Command) :
    i.takeAll commands = { i with
      sourceText := (lastText? commands).getD i.sourceText
      sourceMarkup := (lastText? commands).elim i.sourceMarkup
        fun text => Markup.render i.renderer text i.language
      fileName := (lastFileName? commands).getD i.fileName } := by
  induction commands using List.reverseRecOn with
  | nil => rfl
  | append_singleton commands c ih =>
      rw [takeAll_concat, ih, lastText?, lastText?, lastFileName?, lastFileName?,
        List.filterMap_append, List.filterMap_append]
      cases c with
      | edit text => simp [take, Command.text?, Command.fileName?]
      | rename fileName => simp [take, Command.text?, Command.fileName?]
      | moveCursor | compileNow => simp [take, Command.text?, Command.fileName?]

end Entered

namespace Session

/-- What the session shows of what was put in. -/
def entered (s : Session) : Entered :=
  ⟨s.renderer, s.language, s.view.sourceText, s.view.sourceMarkup, s.view.fileName⟩

/-- The command that is handled. -/
def Stimulus.command? : Stimulus → Option Command
  | .command c => some c
  | _ => none

/-- The commands among stimuli, in the order in which they are handled. -/
def handled (stimuli : List Stimulus) : List Command := stimuli.filterMap Stimulus.command?

theorem entered_handleCommand (s : Session) (c : Command) :
    (s.handleCommand c).2.entered = s.entered.take c := by
  cases c with
  | edit | moveCursor | rename => rfl
  | compileNow =>
      obtain ⟨compiling, hstate⟩ := s.handleCommand_compileNow
      rw [hstate]
      rfl

theorem entered_handleEvent (s : Session) (e : Event) :
    (s.handleEvent e).2.entered = s.entered := by
  cases e with
  | completed o =>
      change (s.apply o).entered = s.entered
      rw [apply]
      cases o.diagnostic with
      | none => rfl
      | some diagnostic => rfl
  | submitted | discarded | workerClosed => rfl

/-- Only a command changes what was entered. -/
theorem entered_react (t : Transformer) (s : Session) (x : Stimulus) :
    (s.react t x).entered = x.command?.elim s.entered s.entered.take := by
  cases x with
  | command c => exact entered_handleCommand s c
  | pass | refusal => rfl
  | timer =>
      change s.fire.2.entered = s.entered
      rw [fire]
      cases s.scheduler.fire? with
      | none => rfl
      | some p => exact entered_handleEvent { s with scheduler := p.2 } p.1
  | response =>
      change (s.react t .response).entered = s.entered
      rw [react, deliver?]
      cases s.scheduler.receive? t with
      | none => rfl
      | some p => exact entered_handleEvent { s with scheduler := p.2 } p.1

/-- What was entered comes of the handled commands. -/
theorem entered_reactAll (t : Transformer) (s : Session) (stimuli : List Stimulus) :
    (s.reactAll t stimuli).entered = s.entered.takeAll (handled stimuli) := by
  induction stimuli generalizing s with
  | nil => rfl
  | cons x stimuli ih =>
      calc (s.reactAll t (x :: stimuli)).entered
        _ = ((s.react t x).reactAll t stimuli).entered := rfl
        _ = (x.command?.elim s.entered s.entered.take).takeAll (handled stimuli) := by
          rw [ih, entered_react]
        _ = s.entered.takeAll (handled (x :: stimuli)) := by cases x <;> rfl

theorem handled_concat (stimuli : List Stimulus) (x : Stimulus) :
    handled (stimuli ++ [x]) = handled stimuli ++ x.command?.toList := by
  rw [handled, List.filterMap_append]
  cases x <;> rfl

end Session

end Provenance

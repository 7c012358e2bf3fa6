import Provenance.Focus
import Provenance.Markup
import Provenance.Scheduler
import Provenance.Status

/-!
# Sessions

A session shows one source text, the code last generated from it and the highlight that links
the two. Commands come from the front end and events from the scheduler; both change what is
shown. After a failed compilation the last good code stays, without its atlas.
-/

namespace Provenance

/-- Everything that a front end needs to draw. -/
structure View where
  fileName : String
  sourceText : String
  sourceMarkup : String
  generatedCode : String
  outputMarkup : String
  status : Status
  highlight : Option Highlight
  deriving DecidableEq, Repr

/-- Input from the front end. -/
inductive Command
  | edit (text : String)
  | moveCursor (position : Position)
  | rename (fileName : String)
  | compileNow
  deriving DecidableEq, Repr

structure Session where
  scheduler : Scheduler
  focus : Focus
  renderer : Renderer
  language : String
  view : View

namespace Session

/-- A session that is about to compile its first text. -/
def start (settings : Settings) (renderer : Renderer) (text : String) : Session where
  scheduler := (Scheduler.ofSettings settings).edit text
  focus := .ofName settings.fileName
  renderer := renderer
  language := settings.language
  view := {
    fileName := settings.fileName
    sourceText := text
    sourceMarkup := Markup.render renderer text settings.language
    generatedCode := ""
    outputMarkup := Markup.render renderer "" settings.language
    status := .initial
    highlight := none
  }

def markup (s : Session) (code : String) : String := Markup.render s.renderer code s.language

/-- Show the highlight of the focus. -/
def showHighlight (s : Session) : Session :=
  { s with view := { s.view with
      status := { s.view.status with mappedLine := s.focus.highlight.map Highlight.line }
      highlight := s.focus.highlight } }

/-- Show that a compilation is running. -/
def showCompiling (s : Session) : Session :=
  { s with view := { s.view with status := { s.view.status with compiling := true } } }

/-- The atlas of a payload, if it carries a map that can be decoded. -/
def atlasOf? (payload : MapPayload) : Option Atlas :=
  payload.sourceMap?.bind fun m => (Atlas.ofSourceMap m).toOption

def applyFailure (s : Session) (diagnostic : String) (elapsed : Binary64) : Session :=
  { s with
    focus := s.focus.dropAtlas
    view := { s.view with
      status := ⟨false, some diagnostic, elapsed, s.view.status.mappedLine⟩ } }.showHighlight

def applySuccess (s : Session) (code : String) (map : Option MapPayload) (elapsed : Binary64) :
    Session :=
  { s with
    focus := s.focus.install (map.bind atlasOf?) code
    view := { s.view with
      generatedCode := code
      outputMarkup := s.markup code
      status := ⟨false, none, elapsed, s.view.status.mappedLine⟩ } }.showHighlight

/-- Show the outcome of a compilation. -/
def apply (s : Session) (o : Outcome) : Session :=
  match o.diagnostic with
  | some diagnostic => s.applyFailure diagnostic o.elapsed
  | none => s.applySuccess (o.generated.getD "") o.map o.elapsed

/-- Carry out a command. -/
def handleCommand (s : Session) : Command → Except WorkerError Unit × Session
  | .edit text =>
    (.ok (), { s with
      scheduler := s.scheduler.edit text
      view := { s.view with sourceText := text, sourceMarkup := s.markup text } })
  | .moveCursor position => (.ok (), { s with focus := s.focus.moveTo position }.showHighlight)
  | .rename fileName =>
    (.ok (), { s with
      scheduler := s.scheduler.rename fileName
      focus := s.focus.rename fileName
      view := { s.view with fileName := fileName } }.showHighlight)
  | .compileNow =>
    match s.scheduler.compileNow with
    | (.ok _, scheduler) => (.ok (), { s with scheduler := scheduler }.showCompiling)
    | (.error e, scheduler) => (.error e, { s with scheduler := scheduler })

/-- Show what the scheduler did. -/
def handleEvent (s : Session) : Event → Except WorkerError Unit × Session
  | .submitted _ => (.ok (), s.showCompiling)
  | .completed o => (.ok (), s.apply o)
  | .discarded _ => (.ok (), s)
  | .workerClosed => (.error .closed, s)

def advance (s : Session) (milliseconds : Nat) : Session :=
  { s with scheduler := s.scheduler.advance milliseconds }

/-- End the quiet period if it has passed. -/
def fire (s : Session) : Except WorkerError Unit × Session :=
  match s.scheduler.fire? with
  | some (event, scheduler) => { s with scheduler := scheduler }.handleEvent event
  | none => (.ok (), s)

/-- Handle responses until the outcome of the latest job is shown or the worker is found
closed; `none` if no response is to be waited for. At most `fuel` responses are handled. -/
def settleWithin (t : Transformer) : Nat → Session → Option (Except WorkerError Unit) × Session
  | 0, s => (none, s)
  | fuel + 1, s =>
    match s.scheduler.receive? t with
    | none => (none, s)
    | some (event, scheduler) =>
      match event, { s with scheduler := scheduler }.handleEvent event with
      | .completed _, (r, s) => (some r, s)
      | _, (.error e, s) => (some (.error e), s)
      | _, (.ok _, s) => settleWithin t fuel s

/-- Handle responses until the outcome of the latest job is shown. -/
def settle (t : Transformer) (s : Session) : Option (Except WorkerError Unit) × Session :=
  s.settleWithin t (s.scheduler.worker.queue.length + 1)

end Session

end Provenance

import Provenance.Proofs.Scheduler.Run
import Provenance.Session

/-!
# Runs of a session

A run of a session handles commands, lets time pass and handles the events of its scheduler, in
any order. What it logs is what happens to the scheduler, so every run of a session is at the
same time a run of its scheduler.

## Implementation notes

The log says nothing about the cursor, which never reaches the scheduler. The first text of a
session counts as an edit, although the log of the session begins after it.
-/

namespace Provenance.Session

variable {t : Transformer} {log : Log} {s s' : Session}

/-- What a command adds to the log. -/
def logged (s : Session) : Command → Log
  | .edit text => [.edited text]
  | .moveCursor _ => []
  | .rename fileName => [.renamed fileName]
  | .compileNow =>
    match s.scheduler.compileNow with
    | (.ok _, _) => [.submitted false s.scheduler.job]
    | (.error _, _) => [.refused]

/-- One step of a session. -/
inductive Step (t : Transformer) (s : Session) : Log → Session → Prop
  | command (c : Command) : Step t s (s.logged c) (s.handleCommand c).2
  | advance (milliseconds : Nat) : Step t s [.passed milliseconds] (s.advance milliseconds)
  | event {e o scheduler} (h : Scheduler.Emits t s.scheduler e o scheduler) :
      Step t s [o] ({ s with scheduler := scheduler }.handleEvent e).2

/-- A run from a first session, with its log. -/
inductive Run (t : Transformer) (first : Session) : Log → Session → Prop
  | begin : Run t first [] first
  | next {log s added s'} (run : Run t first log s) (step : Step t s added s') :
      Run t first (log ++ added) s'

/-- Showing the outcome of a compilation does not touch the scheduler or what is compiled. -/
theorem apply_frame (s : Session) (o : Outcome) :
    (s.apply o).scheduler = s.scheduler ∧ (s.apply o).view.sourceText = s.view.sourceText ∧
      (s.apply o).view.fileName = s.view.fileName := by
  rw [apply]
  cases o.diagnostic with
  | none => exact ⟨rfl, rfl, rfl⟩
  | some diagnostic => exact ⟨rfl, rfl, rfl⟩

/-- Showing an event does not touch the scheduler or what is compiled. -/
theorem handleEvent_frame (s : Session) (e : Event) :
    (s.handleEvent e).2.scheduler = s.scheduler ∧
      (s.handleEvent e).2.view.sourceText = s.view.sourceText ∧
      (s.handleEvent e).2.view.fileName = s.view.fileName := by
  cases e with
  | completed o => exact apply_frame s o
  | submitted | discarded | workerClosed => exact ⟨rfl, rfl, rfl⟩

/-- All that an immediate compilation changes in the view is whether one is running. -/
theorem handleCommand_compileNow (s : Session) :
    ∃ compiling, (s.handleCommand .compileNow).2 = { s with
      scheduler := s.scheduler.compileNow.2
      view := { s.view with status := { s.view.status with compiling := compiling } } } := by
  rw [handleCommand]
  rcases s.scheduler.compileNow with ⟨_ | _, scheduler⟩
  · exact ⟨s.view.status.compiling, rfl⟩
  · exact ⟨true, rfl⟩

theorem logged_compileNow (s : Session) :
    (∃ n, s.scheduler.compileNow.1 = .ok n) ∧
        s.logged .compileNow = [.submitted false s.scheduler.job] ∨
      (∃ e, s.scheduler.compileNow.1 = .error e) ∧ s.logged .compileNow = [.refused] := by
  rw [logged]
  rcases s.scheduler.compileNow with ⟨e | n, scheduler⟩
  · exact Or.inr ⟨⟨e, rfl⟩, rfl⟩
  · exact Or.inl ⟨⟨n, rfl⟩, rfl⟩

/-- A step of a session is a step of its scheduler or leaves it alone. -/
theorem Step.scheduler {added : Log} (h : Step t s added s') :
    added = [] ∧ s'.scheduler = s.scheduler ∨
      ∃ o, added = [o] ∧ Scheduler.Step t s.scheduler o s'.scheduler := by
  cases h with
  | command c =>
      cases c with
      | edit text => exact Or.inr ⟨_, rfl, .edit text⟩
      | moveCursor position => exact Or.inl ⟨rfl, rfl⟩
      | rename fileName => exact Or.inr ⟨_, rfl, .rename fileName⟩
      | compileNow =>
          obtain ⟨compiling, hstate⟩ := s.handleCommand_compileNow
          rw [hstate]
          rcases s.logged_compileNow with ⟨⟨n, hn⟩, hlogged⟩ | ⟨⟨e, he⟩, hlogged⟩
          · exact Or.inr ⟨_, hlogged, .compile (Prod.ext hn rfl)⟩
          · exact Or.inr ⟨_, hlogged, .fail (Prod.ext he rfl)⟩
  | advance milliseconds => exact Or.inr ⟨_, rfl, .advance milliseconds⟩
  | @event e o scheduler h =>
      rw [(handleEvent_frame _ e).1]
      exact Or.inr ⟨o, rfl, .event h⟩

/-- A run of a session is a run of its scheduler that begins with the first text. -/
theorem Run.scheduler {settings : Settings} {renderer : Renderer} {text : String}
    (run : Run t (start settings renderer text) log s) :
    Scheduler.Run t (.ofSettings settings) (.edited text :: log) s.scheduler := by
  induction run with
  | begin => exact .next .begin (.edit text)
  | next run step ih =>
      rcases step.scheduler with ⟨rfl, hsame⟩ | ⟨o, rfl, hstep⟩
      · rw [hsame, List.append_nil]
        exact ih
      · exact .next ih hstep

/-! ## A scripted transformer -/

/-- A transformer that gives the replies of a list in turn and then echoes. -/
def scripted (replies : List Reply) : Transformer where
  load _ := .ready
  reply n c := replies[n]?.getD (.generated ⟨c.code, none⟩)
  time _ := .zero

end Provenance.Session

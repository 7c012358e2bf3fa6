import Provenance.Proofs.Focus.Inputs
import Provenance.Proofs.Scheduler.Response
import Provenance.Proofs.Session.Run

/-!
# Input and responses in either order

A response may arrive before or after the front end sends a text, a cursor or a name. Both orders
lead to the same session, so nobody can tell which of the two came first.

## Implementation notes

An immediate compilation is left out, since it makes the outcome that is under way an outdated one.
-/

namespace Provenance

namespace Session

variable {t : Transformer} {s : Session} {c : Command}

/-- Handle the next response, if there is one to be waited for: the event it gives, what handling
the event returns, and the session afterwards. -/
def deliver? (t : Transformer) (s : Session) :
    Option (Event × Except WorkerError Unit × Session) :=
  (s.scheduler.receive? t).map fun (e, scheduler) =>
    (e, { s with scheduler := scheduler }.handleEvent e)

/-- An outcome does not depend on the text, the cursor and the name, and they do not depend on
it: the highlight is derived from all of them in the end. -/
theorem apply_handleCommand_comm (hc : c ≠ .compileNow) (s : Session) (o : Outcome) :
    (s.handleCommand c).2.apply o = ((s.apply o).handleCommand c).2 := by
  rw [apply, apply]
  cases c with
  | compileNow => exact absurd rfl hc
  | edit | moveCursor | rename =>
      -- Whatever comes last derives the highlight from the same atlas, cursor and name.
      cases o.diagnostic <;> rfl

theorem handleEvent_handleCommand_comm (hc : c ≠ .compileNow) (s : Session) (e : Event) :
    (s.handleCommand c).2.handleEvent e =
      ((s.handleEvent e).1, ((s.handleEvent e).2.handleCommand c).2) := by
  cases e with
  | completed o => exact congrArg (Prod.mk _) (apply_handleCommand_comm hc s o)
  | submitted | discarded | workerClosed =>
      cases c with
      | compileNow => exact absurd rfl hc
      | edit | moveCursor | rename => rfl

/-- What an input does to the scheduler does not concern responses. -/
theorem handleCommand_scheduler (hc : c ≠ .compileNow) :
    ∃ f, Scheduler.Unconcerned f ∧ ∀ (s : Session) (scheduler : Scheduler),
      ({ s with scheduler := scheduler }.handleCommand c).2 =
        { (s.handleCommand c).2 with scheduler := f scheduler } := by
  cases c with
  | compileNow => exact absurd rfl hc
  | edit text => exact ⟨_, Scheduler.unconcerned_edit text, fun _ _ => rfl⟩
  | moveCursor position => exact ⟨_, Scheduler.unconcerned_id, fun _ _ => rfl⟩
  | rename fileName => exact ⟨_, Scheduler.unconcerned_rename fileName, fun _ _ => rfl⟩

/-- An input never fails, and it changes nothing about the next response. The same event arrives
after the input or before it and is handled with the same result, and both orders lead to the same
session. -/
theorem response_input_comm (hc : c ≠ .compileNow) (s : Session) :
    (s.handleCommand c).1 = .ok () ∧
      (s.handleCommand c).2.deliver? t =
        (s.deliver? t).map fun (e, r, s') => (e, r, (s'.handleCommand c).2) := by
  obtain ⟨f, hf, hcommand⟩ := handleCommand_scheduler hc
  have hscheduler : (s.handleCommand c).2.scheduler = f s.scheduler :=
    congrArg Session.scheduler (hcommand s s.scheduler)
  constructor
  · cases c with
    | compileNow => exact absurd rfl hc
    | edit | moveCursor | rename => rfl
  · rw [deliver?, deliver?, hscheduler, hf.receive?_comm, Option.map_map, Option.map_map]
    congr 1
    funext ⟨e, scheduler⟩
    simp only [Function.comp_apply, ← hcommand, handleEvent_handleCommand_comm hc]

/-- A session that waits for its first outcome. -/
def underWay : Session := ((start .default Markup.plain "hello;").handleCommand .compileNow).2

/-- A transformer that gives code with a map. -/
def mapping : Transformer :=
  scripted [.generated ⟨"  hel;", some (.object Focus.splitLineMap)⟩]

theorem response_input_comm_underWay :
    Command.moveCursor ⟨1, 12⟩ ≠ .compileNow ∧
      ∃ e r s, underWay.deliver? mapping = some (e, r, s) ∧ r.isOk = true ∧
        s.view.generatedCode = "  hel;" ∧
        (underWay.handleCommand (.moveCursor ⟨1, 12⟩)).2.deliver? mapping =
          some (e, r, (s.handleCommand (.moveCursor ⟨1, 12⟩)).2) := by
  have hc : Command.moveCursor ⟨1, 12⟩ ≠ .compileNow := Command.noConfusion
  obtain ⟨-, hcomm⟩ := response_input_comm (t := mapping) hc underWay
  exact ⟨hc, _, _, _, rfl, rfl, rfl, hcomm⟩

end Session

end Provenance

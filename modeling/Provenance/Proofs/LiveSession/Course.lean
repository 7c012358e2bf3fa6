import Provenance.LiveSession
import Provenance.Proofs.Session.Entered

/-!
# Courses of a live session

Commands may be sent at any time, and a live session picks a command of its inbox, the timer or a
response in any order. As long as it has not failed, the commands that it has handled and those left
in the inbox are together the commands that were sent, in this order, and the published view is that
of the session (`driven`). So a session that ends well has handled every command once and in order
(`no_command_lost`), and what it shows of the text and the name does not depend on how commands and
events were mixed.

## Implementation notes

A course records the stimuli that reach the session one by one, so that what was handled can be
compared with what was sent. Closing the inbox has no step of its own: it only means that no command
is sent any more, and that the session ends as soon as the inbox is empty (`IsOver`). A worker may
be dead before its end is received, and a submission that it refuses ends the session as well.
-/

namespace Provenance.LiveSession

open Session (Stimulus handled)

/-- The session fails because a worker whose end was not received yet refuses a submission. -/
def refuse (l : LiveSession) : LiveSession :=
  { l with
    session := { l.session with scheduler := l.session.scheduler.spent }
    ended := some (.error .closed) }

/-- What a live session can come to, with the commands that were sent to it and the stimuli that its
session has reacted to. -/
inductive Course (t : Transformer) (first : Session) :
    List Command → List Stimulus → LiveSession → Prop
  | begin : Course t first [] [] (run first)
  | send {sent stimuli l} (course : Course t first sent stimuli l) (c : Command) :
      Course t first (sent ++ [c]) stimuli (l.send c)
  | pass {sent stimuli l} (course : Course t first sent stimuli l) (milliseconds : Nat) :
      Course t first sent (stimuli ++ [.pass milliseconds]) (l.advance milliseconds)
  | command {sent stimuli l c rest} (course : Course t first sent stimuli l)
      (running : l.ended = none) (inbox : l.inbox = c :: rest) :
      Course t first sent (stimuli ++ [.command c]) l.takeCommand
  | timer {sent stimuli l} (course : Course t first sent stimuli l) (running : l.ended = none) :
      Course t first sent (stimuli ++ [.timer]) l.takeTimer
  | response {sent stimuli l} (course : Course t first sent stimuli l) (running : l.ended = none) :
      Course t first sent (stimuli ++ [.response]) (l.takeResponse t)
  | refused {sent stimuli l n} (course : Course t first sent stimuli l) (running : l.ended = none)
      (queued : l.session.scheduler.worker.queue ≠ []) (load : t.load n = .breakdown) :
      Course t first sent (stimuli ++ [.refusal]) l.refuse

/-- The session has ended by itself, or its closed inbox is empty. -/
def IsOver (l : LiveSession) : Prop := l.isRunning = true → l.inbox = []

variable {t t' : Transformer} {first : Session} {sent : List Command} {stimuli : List Stimulus}
variable {l : LiveSession} {r : Except WorkerError Unit × Session}

/-! ## Going on -/

@[simp]
theorem session_publish (l : LiveSession) : l.publish.session = l.session := by
  rw [publish]
  split <;> rfl

@[simp]
theorem inbox_publish (l : LiveSession) : l.publish.inbox = l.inbox := by
  rw [publish]
  split <;> rfl

@[simp]
theorem ended_publish (l : LiveSession) : l.publish.ended = l.ended := by
  rw [publish]
  split <;> rfl

@[simp]
theorem published_publish (l : LiveSession) : l.publish.published = l.session.view := by
  rw [publish]
  split
  · assumption
  · rfl

/-- A session that published its view and does nothing stays as it is. -/
theorem proceed_self (h : l.published = l.session.view) : l.proceed (.ok (), l.session) = l :=
  if_pos h

theorem takeTimer_eq (running : l.ended = none) (h : l.published = l.session.view) :
    l.takeTimer = l.proceed l.session.fire := by
  rw [takeTimer, running, Session.fire]
  cases l.session.scheduler.fire? with
  | none => exact (proceed_self h).symm
  | some p => rfl

theorem takeResponse_eq (t : Transformer) (running : l.ended = none)
    (h : l.published = l.session.view) :
    l.takeResponse t = l.proceed ((l.session.deliver? t).elim (.ok (), l.session) Prod.snd) := by
  rw [takeResponse, running, Session.deliver?]
  cases l.session.scheduler.receive? t with
  | none => exact (proceed_self h).symm
  | some p => rfl

/-! ## Invariant -/

/-- The session has gone through the stimuli. As long as it has not failed, the commands among them
and those in the inbox are the sent ones, and the published view is that of the session. -/
structure Driven (t : Transformer) (first : Session) (sent : List Command)
    (stimuli : List Stimulus) (l : LiveSession) : Prop where
  session : l.session = first.reactAll t stimuli
  running : (∃ e, l.ended = some (.error e)) ∨
    l.ended = none ∧ handled stimuli ++ l.inbox = sent ∧ l.published = l.session.view

namespace Driven

theorem begin (t : Transformer) (first : Session) : Driven t first [] [] (run first) :=
  ⟨rfl, Or.inr ⟨rfl, rfl, rfl⟩⟩

theorem of_running (h : Driven t first sent stimuli l) (hrunning : l.ended = none) :
    handled stimuli ++ l.inbox = sent ∧ l.published = l.session.view := by
  obtain ⟨e, hended⟩ | ⟨-, hsent, hpublished⟩ := h.running
  · rw [hrunning] at hended
    cases hended
  · exact ⟨hsent, hpublished⟩

theorem send (h : Driven t first sent stimuli l) (c : Command) :
    Driven t first (sent ++ [c]) stimuli (l.send c) := by
  obtain ⟨e, hended⟩ | ⟨hrunning, hsent, hpublished⟩ := h.running
  · -- what is sent to a session that has failed is lost
    have hsame : l.send c = l := by rw [LiveSession.send, isRunning, hended]; rfl
    rw [hsame]
    exact ⟨h.session, Or.inl ⟨e, hended⟩⟩
  · have hsend : l.send c = { l with inbox := l.inbox ++ [c] } := by
      rw [LiveSession.send, isRunning, hrunning]
      rfl
    rw [hsend]
    refine ⟨h.session, Or.inr ⟨hrunning, ?_, hpublished⟩⟩
    calc handled stimuli ++ (l.inbox ++ [c])
      _ = handled stimuli ++ l.inbox ++ [c] := (List.append_assoc _ _ _).symm
      _ = sent ++ [c] := by rw [hsent]

theorem pass (h : Driven t first sent stimuli l) (milliseconds : Nat) :
    Driven t first sent (stimuli ++ [.pass milliseconds]) (l.advance milliseconds) := by
  constructor
  · rw [Session.reactAll_concat, ← h.session]
    rfl
  · rw [Session.handled_concat]
    change _ ∨ _ ∧ handled stimuli ++ [] ++ l.inbox = sent ∧ _
    rw [List.append_nil]
    exact h.running

/-- A running session goes on after a stimulus: it publishes its view or fails. -/
theorem proceed {x : Stimulus} (h : l.session = first.reactAll t stimuli) (hrunning : l.ended = none)
    (hsent : handled stimuli ++ x.command?.toList ++ l.inbox = sent)
    (hreact : r.2 = l.session.react t x) :
    Driven t first sent (stimuli ++ [x]) (l.proceed r) := by
  have hsession : r.2 = first.reactAll t (stimuli ++ [x]) := by
    rw [hreact, h, Session.reactAll_concat]
  obtain ⟨e | u, s⟩ := r
  · exact ⟨hsession, Or.inl ⟨e, rfl⟩⟩
  · constructor
    · rw [LiveSession.proceed, session_publish]
      exact hsession
    · refine Or.inr ⟨?_, ?_, ?_⟩
      · rw [LiveSession.proceed, ended_publish]
        exact hrunning
      · rw [LiveSession.proceed, inbox_publish, Session.handled_concat]
        exact hsent
      · rw [LiveSession.proceed, published_publish, session_publish]

theorem command {c : Command} {rest : List Command} (h : Driven t first sent stimuli l)
    (hrunning : l.ended = none) (hinbox : l.inbox = c :: rest) :
    Driven t first sent (stimuli ++ [.command c]) l.takeCommand := by
  -- the command moves from the front of the inbox to the end of the handled ones
  have htake : l.takeCommand = { l with inbox := rest }.proceed (l.session.handleCommand c) := by
    rw [takeCommand, hrunning, hinbox]
  obtain ⟨hsent, -⟩ := h.of_running hrunning
  have hcommands : handled stimuli ++ [c] ++ rest = sent := by
    rw [← List.append_cons, ← hinbox, hsent]
  rw [htake]
  exact proceed (l := { l with inbox := rest }) (x := .command c) h.session hrunning hcommands rfl

/-- An event takes nothing out of the inbox. -/
theorem event {x : Stimulus} (h : Driven t first sent stimuli l) (hrunning : l.ended = none)
    (hx : x.command? = none) (hreact : r.2 = l.session.react t x) :
    Driven t first sent (stimuli ++ [x]) (l.proceed r) := by
  obtain ⟨hsent, -⟩ := h.of_running hrunning
  refine proceed h.session hrunning ?_ hreact
  rw [hx, Option.toList_none, List.append_nil]
  exact hsent

theorem timer (h : Driven t first sent stimuli l) (hrunning : l.ended = none) :
    Driven t first sent (stimuli ++ [.timer]) l.takeTimer := by
  obtain ⟨-, hpublished⟩ := h.of_running hrunning
  rw [takeTimer_eq hrunning hpublished]
  exact h.event hrunning rfl rfl

theorem response (h : Driven t first sent stimuli l) (hrunning : l.ended = none) :
    Driven t first sent (stimuli ++ [.response]) (l.takeResponse t) := by
  obtain ⟨-, hpublished⟩ := h.of_running hrunning
  rw [takeResponse_eq t hrunning hpublished]
  apply h.event hrunning rfl
  rw [Session.react]
  cases l.session.deliver? t with
  | none => rfl
  | some d => rfl

theorem refused (h : Driven t first sent stimuli l) :
    Driven t first sent (stimuli ++ [.refusal]) l.refuse := by
  constructor
  · rw [Session.reactAll_concat, ← h.session]
    rfl
  · exact Or.inl ⟨.closed, rfl⟩

end Driven

theorem driven (course : Course t first sent stimuli l) : Driven t first sent stimuli l := by
  induction course with
  | begin => exact .begin t first
  | send course c ih => exact ih.send c
  | pass course milliseconds ih => exact ih.pass milliseconds
  | command course running inbox ih => exact ih.command running inbox
  | timer course running ih => exact ih.timer running
  | response course running ih => exact ih.response running
  | refused course running queued load ih => exact ih.refused

/-- A session that ends well has not failed before, and nothing is left in its inbox. -/
theorem Driven.ended_of_result (h : Driven t first sent stimuli l) (hover : l.IsOver)
    (hok : l.result = .ok ()) : l.ended = none ∧ handled stimuli = sent := by
  obtain ⟨e, hended⟩ | ⟨hrunning, hsent, -⟩ := h.running
  · rw [result, hended] at hok
    cases hok
  · have hinbox : l.inbox = [] := hover (by rw [isRunning, hrunning]; rfl)
    rw [hinbox, List.append_nil] at hsent
    exact ⟨hrunning, hsent⟩

/-- What a session that ends well shows of the sent commands. -/
theorem entered_of_result (course : Course t first sent stimuli l) (hover : l.IsOver)
    (hok : l.result = .ok ()) : l.session.entered = first.entered.takeAll sent := by
  have h := driven course
  obtain ⟨-, hsent⟩ := h.ended_of_result hover hok
  rw [h.session, Session.entered_reactAll, hsent]

/-- A session that ends well has handled every sent command exactly once and in the order of
sending, and the published view is its last one, as it was after every step. Its text, the markup of
the text and the file name come of the last edit and the last change of the name, so they are the
same however commands and events were mixed. -/
theorem no_command_lost (course : Course t first sent stimuli l) (hover : l.IsOver)
    (hok : l.result = .ok ()) :
    l.session = first.reactAll t stimuli ∧ handled stimuli = sent ∧
      l.published = l.session.view ∧
      (∀ {sent' stimuli' l'}, Course t first sent' stimuli' l' → l'.ended = none →
        l'.published = l'.session.view) ∧
      l.session.view.sourceText = (lastText? sent).getD first.view.sourceText ∧
      l.session.view.sourceMarkup = (lastText? sent).elim first.view.sourceMarkup first.markup ∧
      l.session.view.fileName = (lastFileName? sent).getD first.view.fileName ∧
      ∀ {t' stimuli' l'}, Course t' first sent stimuli' l' → l'.IsOver → l'.result = .ok () →
        l'.session.view.sourceText = l.session.view.sourceText ∧
          l'.session.view.sourceMarkup = l.session.view.sourceMarkup ∧
          l'.session.view.fileName = l.session.view.fileName := by
  have h := driven course
  obtain ⟨hrunning, hsent⟩ := h.ended_of_result hover hok
  have hentered := entered_of_result course hover hok
  have hshown := hentered.trans (Entered.takeAll_eq first.entered sent)
  refine ⟨h.session, hsent, (h.of_running hrunning).2, ?_, congrArg Entered.sourceText hshown,
    congrArg Entered.sourceMarkup hshown, congrArg Entered.fileName hshown, ?_⟩
  · intro sent' stimuli' l' course' running'
    exact ((driven course').of_running running').2
  · intro t' stimuli' l' course' hover' hok'
    have hsame := (entered_of_result course' hover' hok').trans hentered.symm
    exact ⟨congrArg Entered.sourceText hsame, congrArg Entered.sourceMarkup hsame,
      congrArg Entered.fileName hsame⟩

/-- A compilation, an edit and a new name. -/
def mixed : List Command := [.compileNow, .edit "two;", .rename "Other.tsx"]

/-- The commands are handled at one go. -/
def atOnce : List Stimulus := mixed.map .command

/-- The outcomes of both texts are shown before the name is changed. -/
def spread : List Stimulus :=
  [.command .compileNow, .response, .command (.edit "two;"), .pass 1000, .timer, .response,
    .command (.rename "Other.tsx")]

theorem no_command_lost_mixed :
    ∃ l l', Course Session.mapping (.start .default Markup.plain "one;") mixed atOnce l ∧
      Course Session.mapping (.start .default Markup.plain "one;") mixed spread l' ∧
      l.IsOver ∧ l'.IsOver ∧ l.result = .ok () ∧ l'.result = .ok () ∧
      handled spread = mixed ∧ l'.published = l'.session.view ∧
      l.session.view.generatedCode = "" ∧ l'.session.view.generatedCode = "two;" ∧
      l'.session.view.sourceText = "two;" ∧ l.session.view.sourceText = "two;" ∧
      l'.session.view.sourceMarkup = l.session.view.sourceMarkup ∧
      l'.session.view.fileName = l.session.view.fileName := by
  have sent : Course Session.mapping (.start .default Markup.plain "one;") mixed [] _ :=
    ((Course.begin.send .compileNow).send (.edit "two;")).send (.rename "Other.tsx")
  have course : Course Session.mapping _ mixed atOnce _ :=
    ((sent.command rfl rfl).command rfl rfl).command rfl rfl
  -- The second course sends each command right before it is handled.
  have compiled : Course Session.mapping (.start .default Markup.plain "one;") _ _ _ :=
    ((Course.begin.send .compileNow).command rfl rfl).response rfl
  have edited := (compiled.send (.edit "two;")).command rfl rfl
  have shown := ((edited.pass 1000).timer rfl).response rfl
  have course' : Course Session.mapping _ mixed spread _ :=
    (shown.send (.rename "Other.tsx")).command rfl rfl
  obtain ⟨-, hhandled, hpublished, -, htext, -, -, hsame⟩ :=
    no_command_lost course' (fun _ => rfl) rfl
  obtain ⟨htext', hmarkup, hname⟩ := hsame course (fun _ => rfl) rfl
  exact ⟨_, _, course, course', fun _ => rfl, fun _ => rfl, rfl, rfl, hhandled, hpublished, rfl, rfl,
    htext, htext'.trans htext, hmarkup.symm, hname.symm⟩

end Provenance.LiveSession

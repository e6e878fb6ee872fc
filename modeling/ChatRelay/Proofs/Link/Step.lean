import ChatRelay.Link
import Mathlib.Logic.Basic

/-! All that one event can do to the driver of a session, with what must be so beforehand. The two
halves of a driver only meet in the session: a stop that one of them causes ends the other. -/

namespace ChatRelay

namespace Command

def request? (id : SessionId) (room : Option String) (command : Command) : Option Request :=
  match command.plan id room with
  | .submit request => some request
  | _ => none

theorem plan_eq_quit_iff {id : SessionId} {room : Option String} {command : Command} :
    command.plan id room = .quit ↔ command = .quit := by
  cases command with
  | join name => by_cases h : room = some name <;> simp [plan, h]
  | leave => cases room <;> simp [plan]
  | _ => simp [plan]

theorem request?_ne_leave {id i : SessionId} {room : Option String} {command : Command} :
    command.request? id room ≠ some (.leave i) := by
  cases command with
  | join name => by_cases h : room = some name <;> simp [request?, plan, h]
  | leave => cases room <;> simp [request?, plan]
  | _ => simp [request?, plan]

end Command

def Input.ends : Input → Bool
  | .unit .close | .failed | .ended => true
  | .unit (.text _) | .unit .skip => false

namespace Link

def Receptive (l : Link) : Prop := l.reader = .reading ∨ ∃ deadline, l.reader = .flushing deadline

def Writing (l : Link) : Prop := l.writer = .taking ∨ ∃ text, l.writer = .writing text

inductive Step (l : Link) (s : Session) (now : Nat) : Event → Link → Session → Prop
  | reply {text : String} {messages : List Message} (reading : l.reader = .reading)
      (running : s.stopped = false)
      (planned : (Command.parse text).plan l.session s.profile.room = .reply messages) :
      Step l s now (.input (.unit (.text text))) l (s.tellAll messages)
  | post {text : String} {request : Request} (reading : l.reader = .reading)
      (running : s.stopped = false)
      (planned : (Command.parse text).plan l.session s.profile.room = .submit request) :
      Step l s now (.input (.unit (.text text)))
        { l with reader := .posting ⟨.parse text, s.profile.room, request⟩ } s
  | quit {text : String} (reading : l.reader = .reading) (running : s.stopped = false)
      (planned : (Command.parse text).plan l.session s.profile.room = .quit) :
      Step l s now (.input (.unit (.text text)))
        { l with reader := .flushing (now + patience) } (s.tell .goodbye).closeAfterFlush
  | discard {text : String} {deadline : Nat} (flushing : l.reader = .flushing deadline)
      (running : s.stopped = false) : Step l s now (.input (.unit (.text text))) l s
  | skip (receptive : l.Receptive) (running : s.stopped = false) :
      Step l s now (.input (.unit .skip)) l s
  | hangUp {input : Input} (ends : input.ends) (receptive : l.Receptive)
      (running : s.stopped = false) : Step l s now (.input input) { l with reader := .done } s.stop
  | accept {errand : Errand} (posting : l.reader = .posting errand) (running : s.stopped = false) :
      Step l s now .accepted
        { l with reader := if errand.request.answered then .waiting errand else .reading } s
  | answer {errand : Errand} {answer : Except Fault Answer} (waiting : l.reader = .waiting errand)
      (running : s.stopped = false) :
      Step l s now (.answered answer) { l with reader := .reading }
        (s.tellAll (errand.command.replies errand.room answer))
  | giveUp {deadline : Nat} (flushing : l.reader = .flushing deadline) (due : deadline ≤ now) :
      Step l s now .quitOverdue { l with reader := .done } s.stop
  | halt (stopped : s.stopped) (reading : l.reader ≠ .done) :
      Step l s now .readerStopped { l with reader := .done } s
  | take {text : String} {outbox : Outbox} (taking : l.writer = .taking)
      (running : s.stopped = false) (first : s.outbox.take? = some (.text text, outbox)) :
      Step l s now (.took (.text text)) { l with writer := .writing text } { s with outbox }
  | mark {outbox : Outbox} (taking : l.writer = .taking) (running : s.stopped = false)
      (first : s.outbox.take? = some (.close, outbox)) :
      Step l s now (.took .close) { l with writer := .closing (now + patience) }
        (Session.stop { s with outbox })
  | written {text : String} (writing : l.writer = .writing text) :
      Step l s now .written { l with writer := .taking } s
  | fail {text : String} (writing : l.writer = .writing text) :
      Step l s now .writeFailed { l with writer := .closing (now + patience) } s.stop
  | cease (writing : l.Writing) (stopped : s.stopped) :
      Step l s now .writerStopped { l with writer := .closing (now + patience) } s.stop
  | close {deadline : Nat} (closing : l.writer = .closing deadline) :
      Step l s now .closed { l with writer := .done } s
  | leave (read : l.reader = .done) (wrote : l.writer = .done) (pending : l.departure = .pending) :
      Step l s now .leave { l with departure := .announced } s
  | left (announced : l.departure = .announced) :
      Step l s now .left { l with departure := .complete } s

variable {l l' : Link} {s s' : Session} {now : Nat} {e : Event}

theorem step_dispatch {text : String} (reading : l.reader = .reading)
    (running : s.stopped = false) : Step l s now (.input (.unit (.text text)))
      (l.dispatch s now text).1 (l.dispatch s now text).2 := by
  unfold dispatch
  dsimp only
  cases hp : (Command.parse text).plan l.session s.profile.room with
  | reply messages => exact .reply reading running hp
  | submit request => exact .post reading running hp
  | quit => exact .quit reading running hp

theorem step_reading {input : Input} (reading : l.reader = .reading) (running : s.stopped = false) :
    Step l s now (.input input) (l.read s now false input).1 (l.read s now false input).2 := by
  match input with
  | .unit (.text text) => exact step_dispatch reading running
  | .unit .skip => exact .skip (.inl reading) running
  | .unit .close | .failed | .ended => exact .hangUp rfl (.inl reading) running

theorem step_flushing {input : Input} {deadline : Nat} (flushing : l.reader = .flushing deadline)
    (running : s.stopped = false) :
    Step l s now (.input input) (l.read s now true input).1 (l.read s now true input).2 := by
  have receptive : l.Receptive := .inr ⟨deadline, flushing⟩
  match input with
  | .unit (.text text) => exact .discard flushing running
  | .unit .skip => exact .skip receptive running
  | .unit .close | .failed | .ended => exact .hangUp rfl receptive running

theorem step_input {input : Input} (h : l.step s now (.input input) = some (l', s')) :
    Step l s now (.input input) l' s' := by
  simp only [step] at h
  split at h
  · next reading =>
    obtain ⟨running, hread⟩ := Option.ite_none_left_eq_some.1 h
    have hs : Step l s now (.input input) _ _ :=
      step_reading reading (eq_false_of_ne_true running)
    rwa [Option.some.inj hread] at hs
  · next flushing =>
    obtain ⟨running, hread⟩ := Option.ite_none_left_eq_some.1 h
    have hs : Step l s now (.input input) _ _ :=
      step_flushing flushing (eq_false_of_ne_true running)
    rwa [Option.some.inj hread] at hs
  · cases h

theorem step_took {item : Outgoing} (h : l.step s now (.took item) = some (l', s')) :
    Step l s now (.took item) l' s' := by
  obtain ⟨hc, htook⟩ := Option.ite_none_left_eq_some.1 h
  rw [not_or, not_not, Bool.not_eq_true] at hc
  obtain ⟨taking, running⟩ := hc
  cases hb : s.outbox.take? with
  | none =>
    rw [hb] at htook
    cases htook
  | some box =>
    obtain ⟨first, outbox⟩ := box
    rw [hb] at htook
    obtain ⟨hf, htaken⟩ := Option.ite_none_left_eq_some.1 htook
    cases not_not.1 hf
    cases item with
    | text text =>
      cases htaken
      exact .take taking running hb
    | close =>
      cases htaken
      exact .mark taking running hb

theorem step_writerStopped (h : l.step s now .writerStopped = some (l', s')) :
    Step l s now .writerStopped l' s' := by
  simp only [step] at h
  split at h
  · next taking =>
    obtain ⟨stopped, h⟩ := Option.ite_none_right_eq_some.1 h
    cases h
    exact .cease (.inl taking) stopped
  · next writing =>
    obtain ⟨stopped, h⟩ := Option.ite_none_right_eq_some.1 h
    cases h
    exact .cease (.inr ⟨_, writing⟩) stopped
  · cases h

/-- Every event that can happen is one of these steps. -/
theorem step_of_eq_some (h : l.step s now e = some (l', s')) : Step l s now e l' s' := by
  cases e with
  | input input => exact step_input h
  | accepted =>
    simp only [step] at h
    split at h
    · next posting =>
      obtain ⟨running, h⟩ := Option.ite_none_left_eq_some.1 h
      cases h
      exact .accept posting (eq_false_of_ne_true running)
    · cases h
  | answered answer =>
    simp only [step] at h
    split at h
    · next waiting =>
      obtain ⟨running, h⟩ := Option.ite_none_left_eq_some.1 h
      cases h
      exact .answer waiting (eq_false_of_ne_true running)
    · cases h
  | quitOverdue =>
    simp only [step] at h
    split at h
    · next flushing =>
      obtain ⟨due, h⟩ := Option.ite_none_right_eq_some.1 h
      cases h
      exact .giveUp flushing due
    · cases h
  | readerStopped =>
    obtain ⟨⟨stopped, reading⟩, h⟩ := Option.ite_none_right_eq_some.1 h
    cases h
    exact .halt stopped reading
  | took item => exact step_took h
  | written =>
    simp only [step] at h
    split at h
    · next writing =>
      cases h
      exact .written writing
    · cases h
  | writeFailed =>
    simp only [step] at h
    split at h
    · next writing =>
      cases h
      exact .fail writing
    · cases h
  | writerStopped => exact step_writerStopped h
  | closed =>
    simp only [step] at h
    split at h
    · next closing =>
      cases h
      exact .close closing
    · cases h
  | leave =>
    obtain ⟨⟨read, wrote, pending⟩, h⟩ := Option.ite_none_right_eq_some.1 h
    cases h
    exact .leave read wrote pending
  | left =>
    obtain ⟨announced, h⟩ := Option.ite_none_right_eq_some.1 h
    cases h
    exact .left announced

end Link
end ChatRelay

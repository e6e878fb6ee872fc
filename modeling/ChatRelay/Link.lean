import ChatRelay.Hub.Request
import ChatRelay.Inbound

/-! The driver of one admitted session. A reader turns inbound units into requests to the hub and
queues the replies; a writer takes texts off the session's queue; when both have ended, the session
leaves. Which event comes next is decided elsewhere: here is only what each event does. -/

namespace ChatRelay

/-- What comes of a command: replies at once, a request to the hub, or the end of the session. -/
inductive Plan
  | reply (messages : List Message)
  | submit (request : Request)
  | quit
  deriving DecidableEq, Repr

namespace Command

def plan (id : SessionId) (room : Option String) : Command → Plan
  | nick name => .submit (.register id name)
  | join name =>
    if room = some name then .reply [.alreadyHere name] else .submit (.joinRoom id name)
  | leave =>
    match room with
    | some name => .submit (.leaveRoom id name)
    | none => .reply [.ofFault .notInRoom]
  | users => .submit (.users id)
  | help => .reply Message.help
  | quit => .quit
  | pm target body => .submit (.whisper id target body)
  | history limit => .submit (.history id limit)
  | chat body => .submit (.chat id body)
  | usage u => .reply [.usage u.text]
  | unknown word => .reply [.unknownCommand word]
  | empty => .reply []

def replies (room : Option String) : Command → Except Fault Answer → List Message
  | _, .error fault => [.ofFault fault]
  | nick name, .ok _ => [.nicknameChanged name]
  | join name, .ok (.roster members) => [.roomJoined name, .roomRoster members]
  | leave, .ok _ => [.roomLeft (room.getD "")]
  | users, .ok (.users entries) =>
    .userListHeader entries.length :: entries.map fun e => .userEntry e.name e.isSelf
  | pm target body, .ok _ => [.privateSent target body]
  | history _, .ok (.history scope lines) =>
    .historyHeader (Message.scopeText scope) lines.length :: lines.map .historyLine
  | _, .ok _ => []

end Command

inductive Input
  | unit (unit : Inbound)
  | failed
  | ended
  deriving DecidableEq, Repr

/-- A command on its way: what was asked for, from which room, and the request it became. -/
structure Errand where
  command : Command
  room : Option String
  request : Request
  deriving DecidableEq, Repr

inductive Reader
  | reading
  | posting (errand : Errand)
  | waiting (errand : Errand)
  | flushing (deadline : Nat)
  | done
  deriving DecidableEq, Repr

inductive Writer
  | taking
  | writing (text : String)
  | closing (deadline : Nat)
  | done
  deriving DecidableEq, Repr

inductive Departure
  | pending
  | announced
  | complete
  deriving DecidableEq, Repr

structure Link where
  session : SessionId
  reader : Reader
  writer : Writer
  departure : Departure
  deriving DecidableEq, Repr

namespace Link

/-- Milliseconds that flushing, and closing after it, may take. -/
def patience : Nat := 2000

def start (session : SessionId) : Link := ⟨session, .reading, .taking, .pending⟩

inductive Event
  | input (input : Input)
  | accepted
  | answered (answer : Except Fault Answer)
  | quitOverdue
  | readerStopped
  | took (item : Outgoing)
  | written
  | writeFailed
  | writerStopped
  | closed
  | leave
  | left
  deriving Repr

def dispatch (l : Link) (s : Session) (now : Nat) (text : String) : Link × Session :=
  let command := Command.parse text
  match command.plan l.session s.profile.room with
  | .reply messages => (l, s.tellAll messages)
  | .submit request => ({ l with reader := .posting ⟨command, s.profile.room, request⟩ }, s)
  | .quit => ({ l with reader := .flushing (now + patience) }, (s.tell .goodbye).closeAfterFlush)

def read (l : Link) (s : Session) (now : Nat) (flushing : Bool) : Input → Link × Session
  | .unit (.text text) => if flushing then (l, s) else l.dispatch s now text
  | .unit .skip => (l, s)
  | .unit .close | .failed | .ended => ({ l with reader := .done }, s.stop)

def beginClosing (l : Link) (s : Session) (now : Nat) : Link × Session :=
  ({ l with writer := .closing (now + patience) }, s.stop)

/-- The effect of an event at time `now`, if it can happen. A stop is noticed before anything
else, so a stopped session takes no input, request, answer or text. -/
def step (l : Link) (s : Session) (now : Nat) : Event → Option (Link × Session)
  | .input input =>
    match l.reader with
    | .reading => if s.stopped then none else some (l.read s now false input)
    | .flushing _ => if s.stopped then none else some (l.read s now true input)
    | _ => none
  | .accepted =>
    match l.reader with
    | .posting errand =>
      if s.stopped then none
      else
        let reader := if errand.request.answered then .waiting errand else .reading
        some ({ l with reader }, s)
    | _ => none
  | .answered answer =>
    match l.reader with
    | .waiting errand =>
      if s.stopped then none
      else
        some ({ l with reader := .reading }, s.tellAll (errand.command.replies errand.room answer))
    | _ => none
  | .quitOverdue =>
    match l.reader with
    | .flushing deadline =>
      if deadline ≤ now then some ({ l with reader := .done }, s.stop) else none
    | _ => none
  | .readerStopped =>
    if s.stopped ∧ l.reader ≠ .done then some ({ l with reader := .done }, s) else none
  | .took item =>
    if l.writer ≠ .taking ∨ s.stopped then none
    else match s.outbox.take? with
      | none => none
      | some (first, outbox) =>
        if first ≠ item then none
        else match item with
          | .text text => some ({ l with writer := .writing text }, { s with outbox })
          | .close => some (l.beginClosing { s with outbox } now)
  | .written =>
    match l.writer with
    | .writing _ => some ({ l with writer := .taking }, s)
    | _ => none
  | .writeFailed =>
    match l.writer with
    | .writing _ => some (l.beginClosing s now)
    | _ => none
  | .writerStopped =>
    match l.writer with
    | .taking | .writing _ => if s.stopped then some (l.beginClosing s now) else none
    | _ => none
  | .closed =>
    match l.writer with
    | .closing _ => some ({ l with writer := .done }, s)
    | _ => none
  | .leave =>
    if l.reader = .done ∧ l.writer = .done ∧ l.departure = .pending then
      some ({ l with departure := .announced }, s)
    else none
  | .left =>
    if l.departure = .announced then some ({ l with departure := .complete }, s) else none

def submission (l : Link) : Event → Option Request
  | .accepted =>
    match l.reader with
    | .posting errand => some errand.request
    | _ => none
  | .leave => some (.leave l.session)
  | _ => none

end Link
end ChatRelay

import ChatRelay.Wire

/-! A driven session between its hub and its client: the link, the client's end, and the answer
that has come for the link. Here is what its two sides do next if they need not wait. -/

namespace ChatRelay

structure Connection where
  link : Link
  wire : Wire
  answer : Option (Except Fault Answer)
  writerFirst : Bool

inductive Move
  | fetch
  | event (event : Link.Event)

namespace Connection

open Link

def start (session : SessionId) (wire : Wire) : Connection :=
  ⟨.start session, wire, none, false⟩

def nextInput (c : Connection) : Option Move :=
  match c.wire.inbox with
  | input :: _ => some (.event (.input input))
  | [] => if c.wire.pending then some .fetch else none

/-- What the reader does next, if it need not wait. A stop comes first, then the end of patience
after a quit. -/
def nextRead (c : Connection) (s : Session) (now : Nat) (vacancy : Bool) : Option Move :=
  match c.link.reader with
  | .done => none
  | reader =>
    if s.stopped then some (.event .readerStopped)
    else match reader with
      | .reading => c.nextInput
      | .flushing deadline => if deadline ≤ now then some (.event .quitOverdue) else c.nextInput
      | .posting .. => if vacancy then some (.event .accepted) else none
      | .waiting .. => c.answer.map fun answer => .event (.answered answer)
      | .done => none

def nextWrite (c : Connection) (s : Session) (now : Nat) : Option Move :=
  match c.link.writer with
  | .taking =>
    if s.stopped then some (.event .writerStopped)
    else s.outbox.items.head?.map fun item => .event (.took item)
  | .writing _ =>
    if s.stopped then some (.event .writerStopped)
    else if c.wire.gone then some (.event .writeFailed)
    else if c.wire.blocked then none
    else some (.event .written)
  | .closing deadline =>
    if c.wire.gone || !c.wire.blocked || decide (deadline ≤ now) then some (.event .closed)
    else none
  | .done => none

def nextLeave (c : Connection) (vacancy : Bool) : Option Move :=
  match c.link.departure with
  | .pending =>
    if vacancy ∧ c.link.reader = .done ∧ c.link.writer = .done then some (.event .leave) else none
  | .announced => c.answer.map fun _ => .event .left
  | .complete => none

def absorb (c : Connection) (link : Link) : Event → Connection
  | .input _ => { c with link, wire := { c.wire with inbox := c.wire.inbox.tail } }
  | .took (.text text) => { c with link, wire := c.wire.put text }
  | .closed => { c with link, wire := c.wire.cut }
  | .accepted | .leave | .answered _ | .left => { c with link, answer := none }
  | _ => { c with link }

def cost (c : Connection) : Move → Nat
  | .fetch | .event .accepted | .event (.answered _) | .event (.took _) => 1
  | .event .written =>
    match c.wire.channel with
    | .line _ => 1
    | .messages => 0
  | .event _ => 0

def expects (c : Connection) : Request → Bool
  | .leave _ => c.link.departure == .announced
  | request =>
    match c.link.reader with
    | .waiting errand => errand.request == request
    | _ => false

def deadline? (c : Connection) : Option Nat :=
  match c.link.writer, c.link.reader with
  | .closing deadline, _ => some deadline
  | _, .flushing deadline => some deadline
  | _, _ => none

def ended (c : Connection) : Bool := c.link.departure == .complete

end Connection
end ChatRelay

import ChatRelay.Relay.Basic

/-! Parties take turns in the order in which they were woken. In its turn a connection reads and
writes until it has to wait, and the hub empties its mailbox; but a turn is bounded, and who uses
it up goes on after everybody else. When nobody is left, logs are read and clients act. -/

namespace ChatRelay.Relay

def turnSize : Nat := 128

def act (i : Nat) (side : Side) : Nat → Nat × Relay → Nat × Relay
  | 0, (left, r) => (left, r)
  | fuel + 1, (left, r) =>
    if left = 0 then (0, r)
    else match r.connections[i]?, r.next? i side with
      | some c, some m => act i side fuel (left - c.cost m, r.move i m)
      | _, _ => (left, r)

def queued (r : Relay) (i : Nat) : Nat :=
  ((r.connections[i]?).bind fun c => r.hub.pool.get? c.link.session).elim 0 (·.outbox.items.length)

def workload (r : Relay) (i : Nat) : Nat :=
  let input := (r.connections[i]?).elim 0 fun c =>
    c.wire.inbox.length + match c.wire.channel with
      | .line pipe => pipe.arrived.length
      | .messages => 0
  3 * (input + r.queued i) + 4

def actFully (i : Nat) (side : Side) (s : Nat × Relay) : Nat × Relay :=
  act i side (s.2.workload i) s

def listening (r : Relay) (i : Nat) : Bool :=
  (r.connections[i]?).any (·.link.writer == .taking)

/-- Both sides act, and in the end the session leaves. A reader that tells its own session
something wakes the writer, even if that has its turn still to come. -/
def connectionTurn (r : Relay) (i : Nat) : Relay :=
  let first := (r.connections[i]?).any (·.writerFirst)
  let r := r.modify i fun c => { c with writerFirst := !c.writerFirst }
  let before := if first then actFully i .write (turnSize, r) else (turnSize, r)
  let after := actFully i .read before
  let told := before.2.listening i && decide (before.2.queued i < after.2.queued i)
  let (left, r) := if first then after else actFully i .write after
  let (_, r) := act i .leave 2 (turnSize, r)
  let r := if told || left ≠ 0 && r.canAct i then r.wake (.connection i) else r
  if left = 0 then r.defer (.connection i) else r

def hubTurn (r : Relay) : Relay :=
  let n := min turnSize r.mailbox.length
  let r := n.repeat serveNext r
  if n = turnSize then r.defer .hub else r

def turn (r : Relay) : Party → Relay
  | .hub => r.hubTurn
  | .connection i => r.connectionTurn i

def exchange (r : Relay) : Relay :=
  (List.range r.connections.length).foldl
    (fun r i =>
      match r.connections[i]? with
      | none => r
      | some c =>
        let wire := c.wire.exchange
        let r := r.modify i fun c => { c with wire }
        if !c.ended && c.wire.stirredBy wire then r.wake (.connection i) else r) r

def run : Nat → Relay → Relay
  | 0, r => r
  | fuel + 1, r =>
    match r.ready, r.deferred, r.loads with
    | party :: ready, _, _ => run fuel ({ r with ready }.turn party)
    | [], _ :: _, _ => run fuel { r with ready := r.deferred.reverse, deferred := [] }
    | [], [], load :: loads =>
      run fuel (deliver { r with loads } load.connection load.request (.ok load.answer)).rouse
    | [], [], [] =>
      let r := r.exchange
      if r.ready.isEmpty then r else run fuel r

end ChatRelay.Relay

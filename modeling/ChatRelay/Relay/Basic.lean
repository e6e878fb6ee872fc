import ChatRelay.Connection

/-! A hub together with the connections it serves, the requests on their way to it, the time, and
the calls that wait for a shutdown. Here are the single steps of a connection and of the hub. -/

namespace ChatRelay

inductive Party
  | hub
  | connection (i : Nat)
  deriving DecidableEq, Repr

structure Load where
  connection : Nat
  request : Request
  answer : Answer

structure Relay where
  hub : Hub
  now : Nat
  connections : List Connection
  mailbox : List (Nat × Request)
  loads : List Load
  ready : List Party
  deferred : List Party
  owned : List SessionId
  shutdowns : List (Wait String)
  reports : List (String × Report)

namespace Relay

open Link (Event)

def start (limits : Limits) (archive : Option Archive) (stamp : String) : Relay where
  hub := .start limits archive stamp
  now := 0
  connections := []
  mailbox := []
  loads := []
  ready := []
  deferred := []
  owned := []
  shutdowns := []
  reports := []

def vacancy (r : Relay) : Bool := r.mailbox.length < max r.hub.limits.mailbox 1

def wake (r : Relay) (party : Party) : Relay :=
  if r.ready.contains party || r.deferred.contains party then r
  else { r with ready := r.ready ++ [party] }

def defer (r : Relay) (party : Party) : Relay :=
  if r.deferred.contains party then r else { r with deferred := r.deferred ++ [party] }

def modify (r : Relay) (i : Nat) (f : Connection → Connection) : Relay :=
  { r with connections := r.connections.modify i f }

/-! ### A connection acts -/

inductive Side
  | read
  | write
  | leave

def next? (r : Relay) (i : Nat) (side : Side) : Option Move := do
  let c ← r.connections[i]?
  let s ← r.hub.pool.get? c.link.session
  match side with
  | .read => c.nextRead s r.now r.vacancy
  | .write => c.nextWrite s r.now
  | .leave => c.nextLeave r.vacancy

def canAct (r : Relay) (i : Nat) : Bool :=
  (r.next? i .read).isSome || (r.next? i .write).isSome || (r.next? i .leave).isSome

def rouse (r : Relay) : Relay :=
  (List.range r.connections.length).foldl
    (fun r i => if r.canAct i then r.wake (.connection i) else r) r

def submit (r : Relay) (i : Nat) : Option Request → Relay
  | none => r
  | some request => wake { r with mailbox := r.mailbox ++ [(i, request)] } .hub

def perform (r : Relay) (i : Nat) (e : Event) : Relay :=
  match r.connections[i]? with
  | none => r
  | some c =>
    match r.hub.pool.get? c.link.session with
    | none => r
    | some s =>
      match c.link.step s r.now e with
      | none => r
      | some (link, s) =>
        submit
          { r with
            hub := r.hub.update c.link.session fun _ => s
            connections := r.connections.set i (c.absorb link e) }
          i (c.link.submission e)

def move (r : Relay) (i : Nat) : Move → Relay
  | .fetch => r.modify i fun c => { c with wire := c.wire.fetch }
  | .event e => r.perform i e

/-! ### The hub acts -/

def deliver (r : Relay) (i : Nat) (request : Request) (answer : Except Fault Answer) : Relay :=
  r.modify i fun c => if c.expects request then { c with answer := some answer } else c

/-- The lines of a log come later than the word that they are being read. -/
def respond (r : Relay) (i : Nat) (request : Request) : Except Fault Answer → Relay
  | .ok (.history scope lines) =>
    if (r.connections[i]?).any (·.expects request) then
      wake { r with loads := r.loads ++ [⟨i, request, .history scope lines⟩] } (.connection i)
    else r
  | answer => r.deliver i request answer

def serveNext (r : Relay) : Relay :=
  match r.mailbox with
  | [] => r
  | (i, request) :: mailbox =>
    let (answer, hub) := r.hub.handle request
    (respond { r with hub, mailbox } i request answer).rouse

end Relay
end ChatRelay

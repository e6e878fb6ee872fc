import ChatRelay.Link
import ChatRelay.Pipe

/-! The client's end of a connection: what it has sent, and what it gets to see of what is sent to
it. A client that holds back leaves its pipe to fill up; messages always find room. -/

namespace ChatRelay

open Text (Bytes)

inductive Channel
  | line (pipe : Pipe)
  | messages
  deriving DecidableEq, Repr

structure Wire where
  channel : Channel
  inbox : List Input
  finished : Bool
  gone : Bool
  held : Bool
  received : List String
  deriving DecidableEq, Repr

namespace Wire

def create (channel : Channel) (held : Bool) : Wire where
  channel
  inbox := []
  finished := false
  gone := false
  held
  received := []

def lines (pipe limit : Nat) (held : Bool) : Wire := create (.line (.create pipe limit)) held

def messages (held : Bool) : Wire := create .messages held

/-! ### The client's side -/

def send (w : Wire) (input : Input) : Wire := { w with inbox := w.inbox ++ [input] }

def sendBytes (w : Wire) (bytes : Bytes) : Wire :=
  match w.channel with
  | .line pipe => { w with channel := .line (pipe.send bytes) }
  | .messages => w

def inputOfItem : Line.Item → Input
  | .ok line => .unit (Inbound.ofLine line)
  | .error _ => .failed

def finish (w : Wire) : Wire :=
  if w.finished then w
  else
    let last := match w.channel with
      | .line pipe => pipe.decoder.finish.map inputOfItem
      | .messages => []
    { w with finished := true, inbox := w.inbox ++ last ++ [.ended] }

def vanish (w : Wire) : Wire :=
  let channel := match w.channel with
    | .line pipe => .line { pipe with outbound := [], started := [] }
    | .messages => .messages
  { w.finish with channel, gone := true, received := [] }

def hold (w : Wire) (held : Bool) : Wire := { w with held }

/-- What a client does as soon as nobody else acts: it moves on what it has to send and, unless it
holds back, takes what is in its pipe. -/
def exchange (w : Wire) : Wire :=
  match w.channel with
  | .messages => w
  | .line pipe =>
    if w.held then { w with channel := .line pipe.supply }
    else
      let (lines, pipe) := pipe.supply.take
      { w with channel := .line pipe, received := w.received ++ lines }

def receive (w : Wire) : List String × Wire :=
  if w.held then ([], w) else (w.received, { w with received := [] })

/-! ### The connection's side -/

def pending (w : Wire) : Bool :=
  match w.channel with
  | .line pipe => !pipe.arrived.isEmpty
  | .messages => false

def fetch (w : Wire) : Wire :=
  match w.channel with
  | .line pipe =>
    let (items, pipe) := pipe.fetch
    { w with channel := .line pipe, inbox := w.inbox ++ items.map inputOfItem }
  | .messages => w

def blocked (w : Wire) : Bool :=
  match w.channel with
  | .line pipe => pipe.full
  | .messages => false

def put (w : Wire) (text : String) : Wire :=
  if w.gone then w
  else match w.channel with
    | .line pipe => { w with channel := .line (pipe.put text) }
    | .messages => { w with received := w.received ++ [text] }

def cut (w : Wire) : Wire :=
  match w.channel with
  | .line pipe => { w with channel := .line pipe.cut }
  | .messages => w

def stirredBy (w after : Wire) : Bool :=
  match w.channel, after.channel with
  | .line p, .line q =>
    p.arrived.length < q.arrived.length || p.full && q.outbound.length < p.outbound.length
  | _, _ => false

end Wire
end ChatRelay

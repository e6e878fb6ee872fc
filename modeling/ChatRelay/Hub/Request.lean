import ChatRelay.Hub.Presence
import ChatRelay.Hub.Talk

/-! Everything that can be asked of the hub. Requests are handled one after the other, and each
sees the effects of all before it. -/

namespace ChatRelay

inductive Request
  | join (id : SessionId)
  | leave (id : SessionId)
  | register (id : SessionId) (nickname : String)
  | joinRoom (id : SessionId) (room : String)
  | leaveRoom (id : SessionId) (room : String)
  | broadcast (message : Message) (sender : Option SessionId)
  | broadcastIn (room : String) (message : Message) (sender : Option SessionId)
  | chat (id : SessionId) (body : String)
  | whisper (id : SessionId) (target body : String)
  | history (id : SessionId) (limit : Nat)
  | users (id : SessionId)
  | status
  | shutDown
  deriving DecidableEq, Repr

def Request.answered : Request → Bool
  | chat .. | broadcast .. | broadcastIn .. => false
  | _ => true

inductive Answer
  | done
  | roster (members : List String)
  | history (scope : Option String) (lines : List String)
  | users (entries : List UserEntry)
  | status (status : Status)
  deriving DecidableEq, Repr

namespace Hub

def attempt (h : Hub) : Except Fault Hub → Except Fault Answer × Hub
  | .ok h => (.ok .done, h)
  | .error fault => (.error fault, h)

def handle (h : Hub) : Request → Except Fault Answer × Hub
  | .join id => h.attempt (h.join id)
  | .leave id => (.ok .done, h.leave id)
  | .register id nickname => h.attempt (h.register id nickname)
  | .joinRoom id room =>
    let (roster, h) := h.joinRoom id room
    (roster.map .roster, h)
  | .leaveRoom id room => h.attempt (h.leaveRoom id room)
  | .broadcast message sender => (.ok .done, h.broadcast message sender)
  | .broadcastIn room message sender => (.ok .done, h.broadcastIn room message sender)
  | .chat id body => (.ok .done, h.chat id body)
  | .whisper id target body => h.attempt (h.whisper id target body)
  | .history id limit => ((h.history id limit).map fun (scope, lines) => .history scope lines, h)
  | .users id => (.ok (.users (h.users id)), h)
  | .status => (.ok (.status h.status), h)
  | .shutDown => (.ok .done, h.shutDown)

end Hub
end ChatRelay

import ChatRelay.Archive
import ChatRelay.Barrier
import ChatRelay.Limits
import ChatRelay.Room

/-! The state that all clients share. The hub owns the admitted sessions; nicknames and rooms only
refer to them. A shutdown has begun once there is a barrier. -/

namespace ChatRelay

structure Hub where
  limits : Limits
  pool : Pool
  admitted : List SessionId
  nicknames : Registry String SessionId
  rooms : Registry String Room
  archive : Option Archive
  barrier : Option Barrier
  stamp : String

namespace Hub

def start (limits : Limits) (archive : Option Archive) (stamp : String) : Hub where
  limits
  pool := .empty
  admitted := []
  nicknames := .empty
  rooms := .empty
  archive
  barrier := none
  stamp

def stopped (h : Hub) : Bool := h.barrier.isSome

def create (h : Hub) (s : Session) : Hub := { h with pool := h.pool.add s }

def update (h : Hub) (id : SessionId) (f : Session → Session) : Hub :=
  { h with pool := h.pool.update id f }

def session (h : Hub) (id : SessionId) : Except Fault Session :=
  if h.admitted.contains id then
    match h.pool.get? id with
    | some s => .ok s
    | none => .error .unknownSession
  else .error .unknownSession

def requester (h : Hub) (id : SessionId) : Except Fault Session :=
  if h.stopped then .error .shuttingDown else h.session id

def holder? (h : Hub) (nickname : String) : Option SessionId :=
  (h.nicknames.get? nickname).filter fun id => (h.pool.live? id).isSome

def announce (h : Hub) (message : Message) (sender : Option SessionId) : Hub :=
  { h with
    pool := h.pool.fanOut (fun id => h.admitted.contains id && some id != sender) message.text }

def announceIn (h : Hub) (room : Room) (message : Message) (sender : Option SessionId) : Hub :=
  { h with pool := room.broadcast h.pool message sender }

def log (h : Hub) (file : LogFile) (sender body : String) : Hub :=
  { h with archive := h.archive.map (·.append file (Archive.line h.stamp sender body)) }

end Hub
end ChatRelay

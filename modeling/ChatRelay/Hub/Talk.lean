import ChatRelay.Hub.Basic

/-! What is said: chat in a room or in the open, private messages, raw broadcasts, and what can be
asked about them. -/

namespace ChatRelay

structure UserEntry where
  name : String
  isSelf : Bool
  deriving DecidableEq, Repr

structure Status where
  sessions : Nat
  identified : Nat
  rooms : Nat
  stopped : Bool
  deriving DecidableEq, Repr

namespace Hub

def broadcast (h : Hub) (message : Message) (sender : Option SessionId) : Hub :=
  if h.stopped then h else h.announce message sender

def broadcastIn (h : Hub) (name : String) (message : Message) (sender : Option SessionId) : Hub :=
  if h.stopped then h
  else match h.rooms.get? name with
    | none => h
    | some room => h.announceIn room message sender

def chat (h : Hub) (id : SessionId) (body : String) : Hub :=
  match h.requester id with
  | .error _ => h
  | .ok s =>
    match s.profile.room with
    | none => (h.log .openChat s.displayName body).announce (.chat s.displayName body) (some id)
    | some name =>
      match h.rooms.get? name with
      | none => h
      | some room =>
        (h.log (.room name) s.displayName body).announceIn room
          (.roomChat s.displayName name body) (some id)

/-- A private message counts as sent even when its receiver's queue refuses it. -/
def whisper (h : Hub) (id : SessionId) (target body : String) : Except Fault Hub := do
  let s ← h.requester id
  match h.holder? target with
  | none => throw (.userNotFound target)
  | some receiver =>
    let h := h.update receiver (·.tell (.privateFrom s.displayName body))
    return h.log (.pair s.displayName target) s.displayName body

def history (h : Hub) (id : SessionId) (limit : Nat) :
    Except Fault (Option String × List String) :=
  match h.archive with
  | none => .error .historyDisabled
  | some archive => do
    let s ← h.session id
    let lines ← archive.tail (.ofScope s.profile.room) limit
    return (s.profile.room, lines)

def users (h : Hub) (viewer : SessionId) : List UserEntry :=
  let entries := h.admitted.filterMap fun id =>
    (h.pool.get? id).map fun s => (⟨s.displayName, decide (id = viewer)⟩ : UserEntry)
  entries.mergeSort fun a b => a.name ≤ b.name

def status (h : Hub) : Status where
  sessions := h.admitted.length
  identified := h.nicknames.countP fun id => (h.pool.reach? id).isSome
  rooms := h.rooms.size
  stopped := h.stopped

end Hub
end ChatRelay

import ChatRelay.Hub.Rooms

/-! Who is there and under which name: admission, departure, nicknames and shutdown. -/

namespace ChatRelay.Hub

def admitSession (h : Hub) (id : SessionId) (s : Session) : Hub :=
  let h := h.update id (·.tellAll (Message.welcome s.remoteId))
  let h := { h with admitted := if h.admitted.contains id then h.admitted else h.admitted ++ [id] }
  h.announce (.arrived s.remoteId) none

def join (h : Hub) (id : SessionId) : Except Fault Hub :=
  if h.stopped then .error .shuttingDown
  else match h.pool.get? id with
    | none => .error .unknownSession
    | some s => .ok (h.admitSession id s)

def vacateRoom (h : Hub) (id : SessionId) (s : Session) : Hub :=
  match s.profile.room with
  | some room => h.removeFromRoom id room
  | none => h

def freeNickname (h : Hub) (id : SessionId) (s : Session) : Hub :=
  match s.profile.nickname with
  | none => h
  | some nickname =>
    match h.nicknames.get? nickname with
    | none => h
    | some holder =>
      if holder = id ∨ (h.pool.reach? holder).isNone then
        { h with nicknames := h.nicknames.erase nickname }
      else h

def depart (h : Hub) (id : SessionId) (s : Session) : Hub :=
  let h := { h with admitted := h.admitted.filter (· ≠ id) }
  let h := (h.vacateRoom id s).freeNickname id s
  let h := if h.stopped then h else h.announce (.departed s.displayName) none
  { h with barrier := h.barrier.map (·.arrive) }

def leave (h : Hub) (id : SessionId) : Hub :=
  match h.session id with
  | .error _ => h
  | .ok s => h.depart id s

def rename (h : Hub) (id : SessionId) (s : Session) (nickname : String) : Hub :=
  let nicknames := match s.profile.nickname with
    | some old => h.nicknames.erase old
    | none => h.nicknames
  let h := { h with nicknames := nicknames.insert nickname id }
  let h := h.update id fun s => (s.setNickname (some nickname)).setAuthenticated true
  h.announce (.nicknameAnnounced s.displayName nickname) (some id)

/-- Asks for a nickname. To ask for one's own again changes nothing. -/
def register (h : Hub) (id : SessionId) (nickname : String) : Except Fault Hub := do
  let s ← h.requester id
  Name.check .nickname h.limits.nameLength nickname
  match h.holder? nickname with
  | none => return h.rename id s nickname
  | some holder => if holder = id then return h else throw (.nicknameTaken nickname)

/-- Begins the shutdown: every admitted session is stopped and will be counted out. Later calls
find the same barrier. -/
def shutDown (h : Hub) : Hub :=
  match h.barrier with
  | some _ => h
  | none =>
    { h with
      pool := h.pool.stopAll h.admitted.contains
      barrier := some (.arm h.admitted.length) }

end ChatRelay.Hub

import ChatRelay.Hub.Basic

/-! Entering and leaving rooms. A room exists while it has live members. -/

namespace ChatRelay.Hub

def settleRoom (h : Hub) (name : String) (room : Room) : Hub :=
  { h with
    rooms := if room.isEmpty h.pool then h.rooms.erase name else h.rooms.insert name room }

/-- Takes a session out of a room and tells the others. A room opened again under the same name
never held the session, and only forgets who has expired. -/
def removeFromRoom (h : Hub) (id : SessionId) (name : String) : Hub :=
  let h := h.update id (·.setRoom none)
  match h.rooms.get? name with
  | none => h
  | some room =>
    let rest := room.remove h.pool id
    if room.contains id then
      let leaver := ((h.pool.get? id).map (·.displayName)).getD ""
      let h := if h.stopped then h else h.announceIn rest (.memberLeft leaver name) (some id)
      h.settleRoom name rest
    else { h with rooms := h.rooms.insert name rest }

def roomSeeker (h : Hub) (id : SessionId) (name : String) : Except Fault Session := do
  let s ← h.requester id
  Name.check .room h.limits.nameLength name
  match s.profile.room with
  | some current => throw (.alreadyInRoom current)
  | none => return s

def joinRoom (h : Hub) (id : SessionId) (name : String) : Except Fault (List String) × Hub :=
  match h.roomSeeker id name with
  | .error fault => (.error fault, h)
  | .ok s =>
    let room := (h.rooms.get? name).getD (.create name h.limits.roomMembers)
    match room.add h.pool id with
    | (.error fault, room) => (.error fault, h.settleRoom name room)
    | (.ok _, room) =>
      let h := { h with rooms := h.rooms.insert name room }
      let h := h.update id (·.setRoom (some name))
      let h := h.announceIn room (.memberJoined s.displayName) (some id)
      (.ok (room.roster h.pool id), h)

def leaveRoom (h : Hub) (id : SessionId) (name : String) : Except Fault Hub := do
  let s ← h.requester id
  if s.profile.room = some name then return h.removeFromRoom id name
  else throw .notInRoom

end ChatRelay.Hub

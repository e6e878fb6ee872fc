import ChatRelay.Proofs.Ledger.View

/-! A hub without its queues and logs: who is admitted, where nicknames and rooms lead, and what
each session is. Every request has a silent counterpart on ledgers, which tells nobody anything. -/

namespace ChatRelay

structure Ledger where
  limits : Limits
  size : Nat
  admitted : List SessionId
  nicknames : Registry String SessionId
  rooms : Registry String Room
  barrier : Option Barrier
  profile : SessionId → Profile
  running : SessionId → Bool
  present : SessionId → Bool

def Hub.ledger (h : Hub) : Ledger where
  limits := h.limits
  size := h.pool.size
  admitted := h.admitted
  nicknames := h.nicknames
  rooms := h.rooms
  barrier := h.barrier
  profile := h.pool.profile
  running := h.pool.running
  present := h.pool.present

namespace Ledger

def stopped (l : Ledger) : Bool := l.barrier.isSome

def live (l : Ledger) (id : SessionId) : Bool := l.running id && l.present id

def knows (l : Ledger) (id : SessionId) : Bool := l.admitted.contains id && decide (id < l.size)

def hears (l : Ledger) (id : SessionId) : Bool := !l.stopped && l.knows id

theorem knows_iff {l : Ledger} {id : SessionId} :
    l.knows id ↔ id ∈ l.admitted ∧ id < l.size := by
  simp [knows]

theorem hears_iff {l : Ledger} {id : SessionId} :
    l.hears id ↔ l.stopped = false ∧ l.knows id := by
  simp [hears]

def holder? (l : Ledger) (nickname : String) : Option SessionId :=
  (l.nicknames.get? nickname).filter l.live

def setRoom (l : Ledger) (id : SessionId) (room : Option String) : Ledger :=
  { l with profile := Function.update l.profile id { l.profile id with room } }

theorem room_setRoom (l : Ledger) (id : SessionId) (room : Option String) :
    ((l.setRoom id room).profile id).room = room := by
  simp only [setRoom, Function.update_self]

theorem profile_setRoom_of_ne (l : Ledger) {id i : SessionId} (hi : i ≠ id)
    (room : Option String) : (l.setRoom id room).profile i = l.profile i :=
  Function.update_of_ne hi _ _

def create (l : Ledger) : Ledger :=
  { l with
    size := l.size + 1
    running := Function.update l.running l.size true
    present := Function.update l.present l.size true }

def stop (l : Ledger) (id : SessionId) : Ledger :=
  { l with running := Function.update l.running id false }

def expire (l : Ledger) (id : SessionId) : Ledger :=
  { l with present := Function.update l.present id false }

/-! ### Rooms -/

def settled (l : Ledger) (name : String) (room : Room) : Registry String Room :=
  if room.members.any l.live then l.rooms.insert name room else l.rooms.erase name

def roomsWithout (l : Ledger) (id : SessionId) (name : String) : Registry String Room :=
  match l.rooms.get? name with
  | none => l.rooms
  | some room =>
    let rest := (room.keep (· ≠ id)).keep l.present
    if room.contains id then l.settled name rest else l.rooms.insert name rest

def evict (l : Ledger) (id : SessionId) (name : String) : Ledger :=
  { l.setRoom id none with rooms := l.roomsWithout id name }

def seat (l : Ledger) (id : SessionId) (name : String) (room : Room) : Ledger :=
  { l.setRoom id (some name) with rooms := l.rooms.insert name room }

def roomAt (l : Ledger) (name : String) : Room :=
  ((l.rooms.get? name).getD (.create name l.limits.roomMembers)).keep l.present

def seeks (l : Ledger) (id : SessionId) (name : String) : Prop :=
  l.hears id ∧ Name.flaw? .room l.limits.nameLength name = none ∧ (l.profile id).room = none

instance (l : Ledger) (id : SessionId) (name : String) : Decidable (l.seeks id name) :=
  inferInstanceAs (Decidable (_ ∧ _ ∧ _))

def joinRoom (l : Ledger) (id : SessionId) (name : String) : Ledger :=
  let room := l.roomAt name
  if l.seeks id name then
    if room.contains id then l.seat id name room
    else if room.limit ≤ room.members.length then { l with rooms := l.settled name room }
    else l.seat id name { room with members := room.members ++ [id] }
  else l

def leaveRoom (l : Ledger) (id : SessionId) (name : String) : Ledger :=
  if l.hears id ∧ (l.profile id).room = some name then l.evict id name else l

/-! ### Presence -/

def join (l : Ledger) (id : SessionId) : Ledger :=
  if l.stopped ∨ l.size ≤ id ∨ id ∈ l.admitted then l
  else { l with admitted := l.admitted ++ [id] }

def nicknamesWithout (l : Ledger) (id : SessionId) : Registry String SessionId :=
  match (l.profile id).nickname with
  | none => l.nicknames
  | some nickname =>
    match l.nicknames.get? nickname with
    | none => l.nicknames
    | some holder =>
      if holder = id ∨ l.present holder = false then l.nicknames.erase nickname else l.nicknames

def depart (l : Ledger) (id : SessionId) : Ledger :=
  { l.setRoom id none with
    admitted := l.admitted.filter (· ≠ id)
    rooms := (l.profile id).room.elim l.rooms (l.roomsWithout id)
    nicknames := l.nicknamesWithout id
    barrier := l.barrier.map (·.arrive) }

def leave (l : Ledger) (id : SessionId) : Ledger := if l.knows id then l.depart id else l

def rename (l : Ledger) (id : SessionId) (nickname : String) : Ledger :=
  { l with
    nicknames :=
      (match (l.profile id).nickname with
        | some old => l.nicknames.erase old
        | none => l.nicknames).insert nickname id
    profile := Function.update l.profile id
      { l.profile id with nickname := some nickname, authenticated := true } }

def claims (l : Ledger) (id : SessionId) (nickname : String) : Prop :=
  l.hears id ∧ Name.flaw? .nickname l.limits.nameLength nickname = none ∧ l.holder? nickname = none

instance (l : Ledger) (id : SessionId) (nickname : String) : Decidable (l.claims id nickname) :=
  inferInstanceAs (Decidable (_ ∧ _ ∧ _))

def register (l : Ledger) (id : SessionId) (nickname : String) : Ledger :=
  if l.claims id nickname then l.rename id nickname else l

def halt (l : Ledger) : Ledger :=
  { l with
    running := fun id => l.running id && !l.admitted.contains id
    barrier := some (.arm l.admitted.length) }

def shutDown (l : Ledger) : Ledger := if l.stopped then l else l.halt

def handle (l : Ledger) : Request → Ledger
  | .join id => l.join id
  | .leave id => l.leave id
  | .register id nickname => l.register id nickname
  | .joinRoom id room => l.joinRoom id room
  | .leaveRoom id room => l.leaveRoom id room
  | .shutDown => l.shutDown
  | .broadcast .. | .broadcastIn .. | .chat .. | .whisper .. | .history .. | .users _ | .status => l

end Ledger
end ChatRelay

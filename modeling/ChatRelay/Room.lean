import ChatRelay.Pool

/-! Named scopes for messages. A room lists its members in the order they joined and only refers
to them: membership keeps no session alive, and members that stopped or expired are passed over. -/

namespace ChatRelay

structure Room where
  name : String
  limit : Nat
  members : List SessionId
  deriving DecidableEq, Repr

namespace Room

def create (name : String) (limit : Nat) : Room := ⟨name, limit, []⟩

def contains (room : Room) (id : SessionId) : Bool := room.members.contains id

def purge (room : Room) (pool : Pool) : Room :=
  { room with members := room.members.filter fun id => (pool.reach? id).isSome }

def add (room : Room) (pool : Pool) (id : SessionId) : Except Fault Bool × Room :=
  let room := room.purge pool
  if room.contains id then (.ok false, room)
  else if room.limit ≤ room.members.length then (.error (.roomFull room.name), room)
  else (.ok true, { room with members := room.members ++ [id] })

def remove (room : Room) (pool : Pool) (id : SessionId) : Room :=
  { room with members := room.members.filter (· ≠ id) }.purge pool

def liveMembers (room : Room) (pool : Pool) : List SessionId :=
  room.members.filter fun id => (pool.live? id).isSome

def size (room : Room) (pool : Pool) : Nat := (room.liveMembers pool).length

def isEmpty (room : Room) (pool : Pool) : Bool := (room.liveMembers pool).isEmpty

def rosterEntry (viewer id : SessionId) (s : Session) : String :=
  if id = viewer then s.displayName ++ " (You)" else s.displayName

def roster (room : Room) (pool : Pool) (viewer : SessionId) : List String :=
  room.members.filterMap fun id => (pool.live? id).map (rosterEntry viewer id)

def audience (room : Room) (pool : Pool) (sender : Option SessionId) : List SessionId :=
  (room.liveMembers pool).filter (some · ≠ sender)

def broadcast (room : Room) (pool : Pool) (message : Message) (sender : Option SessionId) : Pool :=
  pool.fanOut (room.audience pool sender).contains message.text

def reception (room : Room) (pool : Pool) (message : Message) (sender : Option SessionId) : Nat :=
  (room.audience pool sender).countP fun id =>
    (pool.get? id).any fun s => (s.deliver message.text).toBool

theorem mem_purge {room : Room} {pool : Pool} {id : SessionId} :
    id ∈ (room.purge pool).members ↔ id ∈ room.members ∧ (pool.reach? id).isSome := by
  simp [purge]

theorem mem_remove {room : Room} {pool : Pool} {id i : SessionId} :
    i ∈ (room.remove pool id).members ↔
      i ∈ room.members ∧ i ≠ id ∧ (pool.reach? i).isSome := by
  simp [remove, mem_purge, and_assoc]

theorem mem_liveMembers {room : Room} {pool : Pool} {id : SessionId} :
    id ∈ room.liveMembers pool ↔ id ∈ room.members ∧ (pool.live? id).isSome := by
  simp [liveMembers]

theorem isEmpty_iff {room : Room} {pool : Pool} :
    room.isEmpty pool ↔ ∀ id ∈ room.members, pool.live? id = none := by
  simp [isEmpty, liveMembers, List.filter_eq_nil_iff]

theorem length_roster (room : Room) (pool : Pool) (viewer : SessionId) :
    (room.roster pool viewer).length = room.size pool := by
  unfold roster size liveMembers
  induction room.members with
  | nil => rfl
  | cons id ids ih => cases h : pool.live? id <;> simp [h, ih]

end Room
end ChatRelay

import ChatRelay.Relay.Turn

/-! What happens to a relay from outside: sessions begin, clients send and hold back, time passes,
the hub is asked directly. After each of these all parties take turns until nobody can act. -/

namespace ChatRelay.Relay

/-- Bounds the turns that follow one thing from outside. -/
def horizon : Nat := 1 <<< 20

/-! ### Ends -/

def collect (r : Relay) : Relay :=
  match r.hub.barrier with
  | none => r
  | some barrier =>
    let (reports, shutdowns) := Wait.settle r.shutdowns barrier false r.now
    { r with reports := r.reports ++ reports, shutdowns }

/-- A session lasts while it is admitted, held from outside, or driven. -/
def lasts (r : Relay) (id : SessionId) : Bool :=
  r.hub.admitted.contains id || r.owned.contains id ||
    r.connections.any fun c => c.link.session == id && !c.ended

def expire (r : Relay) : Relay :=
  { r with hub := { r.hub with
      pool := ⟨r.hub.pool.sessions.mapIdx fun id s => if r.lasts id then s else s.expire⟩ } }

def settle (r : Relay) : Relay := (run horizon r.rouse).expire.collect

/-! ### What happens from outside -/

def create (r : Relay) (s : Session) : Relay :=
  { r with hub := r.hub.create s, owned := r.hub.pool.size :: r.owned }

def ask (r : Relay) (request : Request) : Except Fault Answer × Relay :=
  let (answer, hub) := r.hub.handle request
  (answer, settle { r with hub })

def drive (r : Relay) (id : SessionId) (wire : Wire) : Relay :=
  settle (wake { r with connections := r.connections ++ [.start id wire] }
    (.connection r.connections.length))

def connection? (r : Relay) (id : SessionId) : Option Connection :=
  r.connections.find? fun c => c.link.session = id

def mapWire (r : Relay) (id : SessionId) (f : Wire → Wire) : Relay :=
  { r with connections := r.connections.map fun c =>
      if c.link.session = id then { c with wire := f c.wire } else c }

def onWire (r : Relay) (id : SessionId) (f : Wire → Wire) : Relay := settle (r.mapWire id f)

def onSession (r : Relay) (id : SessionId) (f : Session → Session) : Relay :=
  settle { r with hub := r.hub.update id f }

def forget (r : Relay) (id : SessionId) : Relay :=
  settle { r with owned := r.owned.filter (· ≠ id) }

def shutDown (r : Relay) (key : String) (timeout : Option Nat) : Relay :=
  let wait : Wait String := ⟨key, timeout.map (r.now + ·)⟩
  settle (collect { r with hub := r.hub.shutDown, shutdowns := r.shutdowns ++ [wait] })

def overdue (r : Relay) : List Nat :=
  let due := (List.range r.connections.length).filterMap fun i =>
    ((r.connections[i]?).bind (·.deadline?)).bind fun deadline =>
      if deadline ≤ r.now then some (deadline, i) else none
  (due.mergeSort fun a b => a.1 ≤ b.1).map (·.2)

/-- Time passes at once. Calls whose deadline has come report before anybody acts on it. -/
def advance (r : Relay) (ms : Nat) : Relay :=
  let r := collect { r with now := r.now + ms }
  settle (r.overdue.foldl (fun r i => r.wake (.connection i)) r)

def receive (r : Relay) (id : SessionId) : List String × Relay :=
  match r.connection? id with
  | none => ([], r)
  | some c => (c.wire.receive.1, r.mapWire id fun w => w.receive.2)

def drain (r : Relay) (id : SessionId) : List Outgoing × Relay :=
  match r.hub.pool.get? id with
  | none => ([], r)
  | some s =>
    (s.outbox.items,
      { r with hub := r.hub.update id fun s => { s with outbox := s.outbox.clear } })

def takeReports (r : Relay) : List (String × Report) × Relay :=
  (r.reports, { r with reports := [] })

end ChatRelay.Relay

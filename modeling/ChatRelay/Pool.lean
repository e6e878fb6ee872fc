import ChatRelay.Session

/-! All sessions there ever were. A session is known by its place in the pool, and everything that
only refers to a session holds that place. -/

namespace ChatRelay

abbrev SessionId := Nat

structure Pool where
  sessions : List Session
  deriving DecidableEq, Repr

namespace Pool

def empty : Pool := ⟨[]⟩

def size (p : Pool) : Nat := p.sessions.length

def get? (p : Pool) (id : SessionId) : Option Session := p.sessions[id]?

def reach? (p : Pool) (id : SessionId) : Option Session :=
  (p.get? id).filter (!·.expired)

def live? (p : Pool) (id : SessionId) : Option Session :=
  (p.get? id).filter (·.live)

def add (p : Pool) (s : Session) : Pool := ⟨p.sessions ++ [s]⟩

def update (p : Pool) (id : SessionId) (f : Session → Session) : Pool :=
  ⟨p.sessions.modify id f⟩

def fanOut (p : Pool) (target : SessionId → Bool) (text : String) : Pool :=
  ⟨p.sessions.mapIdx fun id s => if target id then s.offer text else s⟩

def stopAll (p : Pool) (target : SessionId → Bool) : Pool :=
  ⟨p.sessions.mapIdx fun id s => if target id then s.stop else s⟩

@[simp] theorem get?_empty (id : SessionId) : empty.get? id = none := rfl

theorem get?_add (p : Pool) (s : Session) (id : SessionId) :
    (p.add s).get? id = if id = p.size then some s else p.get? id := by
  unfold add get? size
  grind

theorem get?_update (p : Pool) (id : SessionId) (f : Session → Session) (i : SessionId) :
    (p.update id f).get? i = if i = id then (p.get? i).map f else p.get? i := by
  unfold update get?
  rw [List.getElem?_modify]
  grind

theorem get?_fanOut (p : Pool) (target : SessionId → Bool) (text : String) (id : SessionId) :
    (p.fanOut target text).get? id =
      (p.get? id).map fun s => if target id then s.offer text else s := by
  simp [fanOut, get?]

theorem get?_stopAll (p : Pool) (target : SessionId → Bool) (id : SessionId) :
    (p.stopAll target).get? id = (p.get? id).map fun s => if target id then s.stop else s := by
  simp [stopAll, get?]

theorem live?_eq_some_iff {p : Pool} {id : SessionId} {s : Session} :
    p.live? id = some s ↔ p.get? id = some s ∧ s.live = true := by
  simp [live?, Option.filter_eq_some_iff]

theorem isSome_live?_fanOut (p : Pool) (target : SessionId → Bool) (text : String)
    (id : SessionId) : ((p.fanOut target text).live? id).isSome = (p.live? id).isSome := by
  unfold live?
  rw [get?_fanOut]
  cases p.get? id with
  | none => rfl
  | some s => cases target id <;> cases h : s.live <;> simp [h]

end Pool
end ChatRelay

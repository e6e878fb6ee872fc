import ChatRelay.Proofs.Run
import Mathlib.Logic.Function.Basic

/-! What a pool says about its sessions when their queues are left out of sight. -/

namespace ChatRelay

namespace Session

def bare (s : Session) : Session := { s with outbox := .create 0 }

@[simp] theorem bare_offer (s : Session) (text : String) : (s.offer text).bare = s.bare := by
  rw [offer_eq]
  rfl

@[simp] theorem bare_tell (s : Session) (m : Message) : (s.tell m).bare = s.bare :=
  bare_offer s m.text

@[simp] theorem bare_tellAll (s : Session) (ms : List Message) : (s.tellAll ms).bare = s.bare := by
  rw [tellAll_eq]
  rfl

theorem bare_act (s : Session) (a : Act) :
    (s.act a).bare = s.bare ∨ (s.act a).bare = s.stop.bare := by
  cases a with
  | offer text => exact .inl (bare_offer s text)
  | take =>
    unfold act
    cases s.outbox.take? <;> exact .inl rfl
  | closeAfterFlush =>
    obtain ⟨_, _, h⟩ | ⟨_, h⟩ := s.closeAfterFlush_cases
    · exact .inl (by rw [act, h]; rfl)
    · exact .inr (by rw [act, h])
  | stop => exact .inr rfl
  | shut => exact .inl rfl
  | abandon => exact .inl rfl

end Session

namespace Pool

def bare (p : Pool) : Pool := ⟨p.sessions.map Session.bare⟩

/-- What `g` says of a session, or `d` where there is none. -/
def view {α : Type} (p : Pool) (d : α) (g : Session → α) (id : SessionId) : α :=
  (p.get? id).elim d g

def profile (p : Pool) : SessionId → Profile := p.view .fresh (·.profile)

def running (p : Pool) : SessionId → Bool := p.view false (!·.stopped)

def present (p : Pool) : SessionId → Bool := p.view false (!·.expired)

theorem get?_bare (p : Pool) (id : SessionId) : p.bare.get? id = (p.get? id).map Session.bare := by
  simp [bare, get?]

theorem ext_get? {p q : Pool} (h : ∀ id, p.get? id = q.get? id) : p = q := by
  cases p
  cases q
  exact congrArg Pool.mk (List.ext_getElem? h)

@[simp] theorem size_bare (p : Pool) : p.bare.size = p.size := by
  simp [bare, size]

@[simp] theorem size_add (p : Pool) (s : Session) : (p.add s).size = p.size + 1 := by
  simp [add, size]

@[simp] theorem size_update (p : Pool) (id : SessionId) (f : Session → Session) :
    (p.update id f).size = p.size := by
  simp [update, size]

@[simp] theorem size_stopAll (p : Pool) (target : SessionId → Bool) :
    (p.stopAll target).size = p.size := by
  simp [stopAll, size]

theorem isSome_get?_iff {p : Pool} {id : SessionId} : (p.get? id).isSome ↔ id < p.size := by
  simp [get?, size]

theorem lt_size_of_get? {p : Pool} {id : SessionId} {s : Session} (h : p.get? id = some s) :
    id < p.size := isSome_get?_iff.1 (by rw [h]; rfl)

theorem bare_fanOut (p : Pool) (target : SessionId → Bool) (text : String) :
    (p.fanOut target text).bare = p.bare := by
  apply ext_get?
  intro id
  rw [get?_bare, get?_bare, get?_fanOut]
  cases p.get? id with
  | none => rfl
  | some s => cases target id <;> simp

theorem bare_update {p : Pool} {id : SessionId} {f g : Session → Session}
    (h : ∀ s, p.get? id = some s → (f s).bare = (g s).bare) :
    (p.update id f).bare = (p.update id g).bare := by
  apply ext_get?
  intro i
  rw [get?_bare, get?_bare, get?_update, get?_update]
  by_cases hi : i = id
  · subst hi
    cases hs : p.get? i with
    | none => rfl
    | some s => simp [h s hs]
  · rw [if_neg hi, if_neg hi]

theorem update_self (p : Pool) (id : SessionId) : p.update id (·) = p := by
  apply ext_get?
  intro i
  rw [get?_update]
  simp

theorem update_of_get?_none {p : Pool} {id : SessionId} (h : p.get? id = none)
    (f : Session → Session) : p.update id f = p := by
  apply ext_get?
  intro i
  rw [get?_update]
  by_cases hi : i = id
  · simp [hi, h]
  · simp [hi]

theorem bare_update_of_bare {p : Pool} {id : SessionId} {f : Session → Session}
    (h : ∀ s, p.get? id = some s → (f s).bare = s.bare) : (p.update id f).bare = p.bare :=
  (bare_update h).trans (by rw [update_self])

theorem isSome_reach? (p : Pool) (id : SessionId) : (p.reach? id).isSome = p.present id := by
  unfold reach? present view
  cases p.get? id with
  | none => rfl
  | some s => cases h : s.expired <;> simp [h]

theorem isSome_live? (p : Pool) (id : SessionId) :
    (p.live? id).isSome = (p.running id && p.present id) := by
  unfold live? running present view
  cases p.get? id with
  | none => rfl
  | some s => cases h : s.expired <;> cases h' : s.stopped <;> simp [Session.live, h, h']

/-! ### Views -/

variable {α : Type} {d : α} {g : Session → α}

theorem view_of_get? {p : Pool} {id : SessionId} {s : Session} (h : p.get? id = some s) :
    p.view d g id = g s := by
  rw [view, h]
  rfl

theorem view_eq_of_bare (hg : ∀ s, g s.bare = g s) {p q : Pool} (h : p.bare = q.bare) :
    p.view d g = q.view d g := by
  funext id
  have hb := congrArg (fun r => r.get? id) h
  simp only [get?_bare] at hb
  unfold view
  cases hp : p.get? id <;> cases hq : q.get? id <;> simp only [hp, hq, Option.map_none,
    Option.map_some, reduceCtorEq, Option.some.injEq] at hb
  · rfl
  · rw [Option.elim_some, Option.elim_some, ← hg, hb, hg]

theorem view_add (p : Pool) (s : Session) :
    (p.add s).view d g = Function.update (p.view d g) p.size (g s) := by
  funext i
  unfold view
  rw [get?_add]
  by_cases hi : i = p.size
  · subst hi
    simp
  · simp [hi]

theorem view_update (p : Pool) {id : SessionId} {s : Session} (f : Session → Session)
    (h : p.get? id = some s) :
    (p.update id f).view d g = Function.update (p.view d g) id (g (f s)) := by
  funext i
  unfold view
  rw [get?_update]
  by_cases hi : i = id
  · subst hi
    simp [h]
  · simp [hi]

theorem view_stopAll_of (p : Pool) (target : SessionId → Bool) (hg : ∀ s, g s.stop = g s) :
    (p.stopAll target).view d g = p.view d g := by
  funext i
  unfold view
  rw [get?_stopAll]
  cases p.get? i with
  | none => rfl
  | some s => cases target i <;> simp [hg]

theorem running_stopAll (p : Pool) (target : SessionId → Bool) :
    (p.stopAll target).running = fun id => p.running id && !target id := by
  funext i
  unfold running view
  rw [get?_stopAll]
  cases p.get? i with
  | none => rfl
  | some s => cases target i <;> simp [Session.stop]

end Pool

namespace Room

def keep (room : Room) (p : SessionId → Bool) : Room :=
  { room with members := room.members.filter p }

theorem contains_iff {room : Room} {id : SessionId} : room.contains id ↔ id ∈ room.members :=
  List.contains_iff_mem

theorem remove_eq (room : Room) (p : Pool) (id : SessionId) :
    room.remove p id = (room.keep (· ≠ id)).keep p.present := by
  simp only [remove, purge, keep, Pool.isSome_reach?]

theorem purge_eq (room : Room) (p : Pool) : room.purge p = room.keep p.present := by
  simp only [purge, keep, Pool.isSome_reach?]

end Room

end ChatRelay

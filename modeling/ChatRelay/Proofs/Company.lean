import ChatRelay.Proofs.FanOut
import Mathlib.Data.List.Dedup

/-! Who is in a room. Whoever was let in, went or was spoken to, and whatever became of the
sessions meanwhile, all that the room tells is about the same company: those who were let in, did
not go since and are still live, in the order in which they last came. -/

namespace ChatRelay

section Latest

variable {α : Type} [DecidableEq α] {xs ys : List α} {a : α}

theorem dedup_concat (xs : List α) (a : α) :
    (xs ++ [a]).dedup = (xs.dedup.filter (· ≠ a)) ++ [a] := by
  induction xs with
  | nil => rfl
  | cons x xs ih =>
    rw [List.cons_append]
    by_cases hx : x ∈ xs
    · rw [List.dedup_cons_of_mem (List.mem_append_left _ hx), ih, List.dedup_cons_of_mem hx]
    · rw [List.dedup_cons_of_notMem hx]
      by_cases hxa : x = a
      · have hlast : x ∈ xs ++ [a] := List.mem_append_right _ (List.mem_singleton.2 hxa)
        rw [List.dedup_cons_of_mem hlast, ih, List.filter_cons_of_neg (by simpa using hxa)]
      · have hnew : x ∉ xs ++ [a] := by simp [hx, hxa]
        rw [List.dedup_cons_of_notMem hnew, ih, List.filter_cons_of_pos (by simpa using hxa),
          List.cons_append]

theorem sublist_dedup_concat (h : ys.Sublist xs.dedup) (new : a ∉ ys) :
    (ys ++ [a]).Sublist (xs ++ [a]).dedup := by
  rw [dedup_concat]
  apply List.Sublist.append_right
  have hself : ys.filter (· ≠ a) = ys :=
    List.filter_eq_self.2 fun y hy => decide_eq_true fun hya => new (hya ▸ hy)
  rw [← hself]
  exact h.filter _

end Latest

namespace Session

theorem expired_act (s : Session) (a : Act) : (s.act a).expired = s.expired := by
  rcases bare_act s a with h | h
  · exact congrArg (·.expired) h
  · exact congrArg (·.expired) h

theorem toBool_deliver_iff (s : Session) (text : String) :
    (s.deliver text).toBool ↔ s.Accepts := by
  constructor
  · intro h
    cases hd : s.deliver text with
    | error fault => rw [hd] at h; cases h
    | ok t =>
      obtain ⟨hrun, box, hpush, -⟩ := deliver_eq_ok_iff.1 hd
      obtain ⟨hopen, hspace, -⟩ := Outbox.push_eq_ok_iff.1 hpush
      exact ⟨hrun, hopen, hspace⟩
  · rintro ⟨hrun, hopen, hspace⟩
    have hpush : s.outbox.push (.text text) = .ok (s.withText text).outbox :=
      Outbox.push_eq_ok_iff.2 ⟨hopen, hspace, rfl⟩
    rw [deliver_eq_ok_iff.2 ⟨hrun, _, hpush, rfl⟩]
    rfl

theorem withText_ne (s : Session) (text : String) : s.withText text ≠ s := by
  intro h
  have hitems : s.outbox.items ++ [.text text] = s.outbox.items :=
    congrArg (fun s => s.outbox.items) h
  simp at hitems

end Session

theorem Pool.present_of_update {pool : Pool} {id : SessionId} {f : Session → Session}
    (h : ∀ s, (f s).expired = false → s.expired = false) (i : SessionId)
    (hp : (pool.update id f).present i) : pool.present i := by
  unfold Pool.present Pool.view at hp ⊢
  rw [Pool.get?_update] at hp
  cases hs : pool.get? i with
  | none => simp [hs] at hp
  | some s =>
    rw [hs] at hp
    by_cases hi : i = id
    · rw [if_pos hi] at hp
      simpa using h s (by simpa using hp)
    · rw [if_neg hi] at hp
      exact hp

namespace Room

variable {room : Room} {pool q : Pool} {id : SessionId} {limit : Nat}

/-! ### What a room tells -/

structure Tells (room : Room) (pool : Pool) (ids : List SessionId) : Prop where
  roster : ∀ viewer, List.Forall₂ (fun id entry => ∃ s, pool.get? id = some s ∧
    entry = if id = viewer then s.displayName ++ " (You)" else s.displayName) ids
      (room.roster pool viewer)
  size : room.size pool = ids.length
  isEmpty : room.isEmpty pool ↔ ids = []
  audience : ∀ sender, room.audience pool sender = ids.filter (some · ≠ sender)

theorem forall₂_roster (room : Room) (pool : Pool) (viewer : SessionId) :
    List.Forall₂ (fun id entry => ∃ s, pool.get? id = some s ∧
      entry = if id = viewer then s.displayName ++ " (You)" else s.displayName)
      (room.liveMembers pool) (room.roster pool viewer) := by
  unfold roster liveMembers
  induction room.members with
  | nil => exact .nil
  | cons id ids ih =>
    cases hl : pool.live? id with
    | none => simpa [hl] using ih
    | some s =>
      have hs := (Pool.live?_eq_some_iff.1 hl).1
      simpa [hl] using ⟨⟨s, hs, rfl⟩, ih⟩

theorem tells_liveMembers (room : Room) (pool : Pool) :
    room.Tells pool (room.liveMembers pool) where
  roster := forall₂_roster room pool
  size := rfl
  isEmpty := List.isEmpty_iff
  audience _ := rfl

theorem Tells.of_liveMembers_eq {other : Room}
    (h : other.liveMembers pool = room.liveMembers pool) :
    other.Tells pool (room.liveMembers pool) := h ▸ tells_liveMembers other pool

theorem liveMembers_keep (room : Room) (pool : Pool) (p : SessionId → Bool) :
    (room.keep p).liveMembers pool = (room.liveMembers pool).filter p := by
  simp only [liveMembers, keep, List.filter_filter, Bool.and_comm]

theorem liveMembers_keep_present (room : Room) (pool : Pool) :
    (room.keep pool.present).liveMembers pool = room.liveMembers pool := by
  rw [liveMembers_keep]
  refine List.filter_eq_self.2 fun id hid => ?_
  have hlive := (mem_liveMembers.1 hid).2
  rw [Pool.isSome_live?, Bool.and_eq_true] at hlive
  exact hlive.2

theorem liveMembers_remove (hid : id ∉ room.members) :
    (room.remove pool id).liveMembers pool = room.liveMembers pool := by
  rw [remove_eq, liveMembers_keep_present, liveMembers_keep]
  refine List.filter_eq_self.2 fun i hi => decide_eq_true fun he => hid ?_
  exact he ▸ (mem_liveMembers.1 hi).1

theorem add_cases (room : Room) (pool : Pool) (id : SessionId) :
    (id ∈ (room.keep pool.present).members ∧
      room.add pool id = (.ok false, room.keep pool.present)) ∨
    (id ∉ (room.keep pool.present).members ∧
      room.limit ≤ (room.keep pool.present).members.length ∧
      room.add pool id = (.error (.roomFull room.name), room.keep pool.present)) ∨
    (id ∉ (room.keep pool.present).members ∧
      (room.keep pool.present).members.length < room.limit ∧
      room.add pool id = (.ok true, { room.keep pool.present with
        members := (room.keep pool.present).members ++ [id] })) := by
  have hlimit : (room.keep pool.present).limit = room.limit := rfl
  unfold add
  dsimp only
  rw [purge_eq, hlimit]
  by_cases hc : id ∈ (room.keep pool.present).members
  · rw [if_pos (contains_iff.2 hc)]
    exact .inl ⟨hc, rfl⟩
  rw [if_neg (mt contains_iff.1 hc)]
  by_cases hfull : room.limit ≤ (room.keep pool.present).members.length
  · rw [if_pos hfull]
    exact .inr (.inl ⟨hc, hfull, rfl⟩)
  · rw [if_neg hfull]
    exact .inr (.inr ⟨hc, Nat.lt_of_not_le hfull, rfl⟩)

theorem add_of_mem (hp : pool.present id) (hid : id ∈ room.members) :
    room.add pool id = (.ok false, room.keep pool.present) := by
  have listed : id ∈ (room.keep pool.present).members := mem_keep.2 ⟨hid, hp⟩
  rcases add_cases room pool id with ⟨-, hadd⟩ | ⟨new, -⟩ | ⟨new, -⟩
  · exact hadd
  · exact absurd listed new
  · exact absurd listed new

/-! ### What is said in a room -/

theorem heard_broadcast (room : Room) (pool : Pool) (m : Message) (sender : Option SessionId) :
    pool.Heard (room.broadcast pool m sender)
      (fun i => i ∈ room.liveMembers pool ∧ some i ≠ sender) m.text := by
  refine Pool.heard_fanOut m.text fun i _ _ _ => ?_
  rw [List.contains_iff_mem, audience, List.mem_filter, decide_eq_true_iff]

theorem reception_eq (room : Room) (pool : Pool) (m : Message) (sender : Option SessionId) :
    room.reception pool m sender = (room.liveMembers pool).countP fun i => some i ≠ sender ∧
      (room.broadcast pool m sender).get? i = (pool.get? i).map (·.withText m.text) := by
  unfold reception
  rw [audience, List.countP_filter]
  refine List.countP_congr fun i hi => ?_
  obtain ⟨s, hl⟩ := Option.isSome_iff_exists.1 (mem_liveMembers.1 hi).2
  have hs := (Pool.live?_eq_some_iff.1 hl).1
  have hheard := heard_broadcast room pool m sender i
  rw [hs, Option.map_some] at hheard
  rw [hs, hheard]
  simp only [Option.any_some, Option.map_some, Option.some.injEq, Bool.and_eq_true,
    decide_eq_true_iff, Session.toBool_deliver_iff]
  rw [and_comm]
  refine and_congr_right fun hne => ?_
  by_cases ha : s.Accepts
  · simp [hi, hne, ha]
  · simp [ha, (s.withText_ne m.text).symm]

/-! ### What happens to a room, and to the sessions it refers to -/

inductive Event
  | add (id : SessionId)
  | remove (id : SessionId)
  | broadcast (message : Message) (sender : Option SessionId)
  | act (id : SessionId) (act : Session.Act)
  | expire (id : SessionId)
  | revise (id : SessionId) (profile : Profile)
  deriving DecidableEq, Repr

structure Scene where
  room : Room
  pool : Pool
  deriving DecidableEq, Repr

inductive Move
  | came (id : SessionId)
  | went (id : SessionId)
  deriving DecidableEq, Repr

namespace Scene

def step (s : Scene) : Event → Scene
  | .add id => { s with room := (s.room.add s.pool id).2 }
  | .remove id => { s with room := s.room.remove s.pool id }
  | .broadcast message sender => { s with pool := s.room.broadcast s.pool message sender }
  | .act id act => { s with pool := s.pool.update id (·.act act) }
  | .expire id => { s with pool := s.pool.update id (·.expire) }
  | .revise id profile => { s with pool := s.pool.update id ({ · with profile }) }

def run (s : Scene) (es : List Event) : Scene := es.foldl step s

def noted (s : Scene) : Event → List Move
  | .add id =>
    match (s.room.add s.pool id).1 with
    | .ok true => [.came id]
    | _ => []
  | .remove id => [.went id]
  | _ => []

def moves (s : Scene) : List Event → List Move
  | [] => []
  | e :: es => s.noted e ++ (s.step e).moves es

end Scene

namespace Move

variable {moves : List Move} {i : SessionId}

def comer? : Move → Option SessionId
  | .came id => some id
  | .went _ => none

def Stays (moves : List Move) (id : SessionId) : Prop :=
  ∃ early late, moves = early ++ .came id :: late ∧ .went id ∉ late

theorem stays_concat_iff (m : Move) :
    Stays (moves ++ [m]) id ↔ m = .came id ∨ m ≠ .went id ∧ Stays moves id := by
  constructor
  · rintro ⟨early, late, hmoves, hlate⟩
    rcases List.eq_nil_or_concat late with rfl | ⟨late, last, rfl⟩
    · obtain ⟨-, hm⟩ := List.append_inj' hmoves rfl
      exact .inl (List.singleton_inj.1 hm)
    · rw [List.concat_eq_append] at hmoves hlate
      rw [← List.cons_append, ← List.append_assoc] at hmoves
      obtain ⟨hearly, hm⟩ := List.append_inj' hmoves rfl
      rw [List.mem_append, List.mem_singleton, not_or] at hlate
      refine .inr ⟨fun he => hlate.2 ?_, early, late, hearly, hlate.1⟩
      rw [← he]
      exact List.singleton_inj.1 hm
  · rintro (rfl | ⟨hm, early, late, rfl, hlate⟩)
    · exact ⟨moves, [], rfl, List.not_mem_nil⟩
    · refine ⟨early, late ++ [m], by simp, ?_⟩
      rw [List.mem_append, List.mem_singleton, not_or]
      exact ⟨hlate, fun he => hm he.symm⟩

theorem not_stays_nil : ¬ Stays [] id := by
  rintro ⟨early, late, hmoves, -⟩
  simp at hmoves

end Move

open Move

/-! ### Who stays -/

/-- The list of members against what was noted. The expired may or may not be listed still. -/
structure Booked (limit : Nat) (moves : List Move) (s : Scene) : Prop where
  limited : s.room.limit = limit
  bounded : s.room.members.length ≤ limit
  ordered : s.room.members.Sublist (moves.filterMap comer?).dedup
  mem_iff : ∀ id, s.pool.present id → (id ∈ s.room.members ↔ Stays moves id)

namespace Booked

variable {moves : List Move} {s : Scene} {e : Event} {es : List Event}

theorem keep (hb : Booked limit moves s) : Booked limit moves { s with
    room := s.room.keep s.pool.present } where
  limited := hb.limited
  bounded := Nat.le_trans (List.length_filter_le _ _) hb.bounded
  ordered := List.filter_sublist.trans hb.ordered
  mem_iff id hp := by
    rw [mem_keep, and_iff_left hp]
    exact hb.mem_iff id hp

theorem outside (hb : Booked limit moves s) (h : ∀ id, q.present id → s.pool.present id) :
    Booked limit moves { s with pool := q } where
  limited := hb.limited
  bounded := hb.bounded
  ordered := hb.ordered
  mem_iff id hp := hb.mem_iff id (h id hp)

theorem came (hb : Booked limit moves s) (new : id ∉ s.room.members)
    (free : s.room.members.length < limit) :
    Booked limit (moves ++ [.came id]) { s with
      room := { s.room with members := s.room.members ++ [id] } } where
  limited := hb.limited
  bounded := by
    rw [List.length_append]
    exact free
  ordered := by
    rw [List.filterMap_append]
    exact sublist_dedup_concat hb.ordered new
  mem_iff i hp := by
    rw [stays_concat_iff, ← hb.mem_iff i hp, List.mem_append, List.mem_singleton, Move.came.injEq,
      eq_comm, or_comm, ne_eq, and_iff_right nofun]

theorem add (hb : Booked limit moves s) (id : SessionId) :
    Booked limit (moves ++ s.noted (.add id)) (s.step (.add id)) := by
  rw [Scene.step, Scene.noted]
  rcases add_cases s.room s.pool id with ⟨-, hadd⟩ | ⟨-, -, hadd⟩ | ⟨new, free, hadd⟩
  · rw [hadd]
    exact (List.append_nil moves).symm ▸ hb.keep
  · rw [hadd]
    exact (List.append_nil moves).symm ▸ hb.keep
  · rw [hadd]
    exact hb.keep.came new (hb.limited ▸ free)

theorem went (hb : Booked limit moves s) (id : SessionId) :
    Booked limit (moves ++ [.went id]) { s with room := s.room.keep (· ≠ id) } where
  limited := hb.limited
  bounded := Nat.le_trans (List.length_filter_le _ _) hb.bounded
  ordered := by
    have hcomers : (moves ++ [Move.went id]).filterMap comer? = moves.filterMap comer? := by
      rw [List.filterMap_append]
      exact List.append_nil _
    rw [hcomers]
    exact List.filter_sublist.trans hb.ordered
  mem_iff i hp := by
    rw [stays_concat_iff, ← hb.mem_iff i hp, mem_keep, decide_eq_true_iff, and_comm]
    simp [eq_comm]

theorem step (hb : Booked limit moves s) (e : Event) :
    Booked limit (moves ++ s.noted e) (s.step e) := by
  have hpool {q : Pool} (h : ∀ i, q.present i → s.pool.present i) :
      Booked limit (moves ++ []) { s with pool := q } := by
    rw [List.append_nil]
    exact hb.outside h
  cases e with
  | add id => exact hb.add id
  | remove id =>
    rw [Scene.step, remove_eq]
    exact (hb.went id).keep
  | broadcast m sender =>
    apply hpool
    intro i hi
    exact (congrFun (Pool.view_eq_of_bare (fun _ => rfl) (Pool.bare_fanOut _ _ _)) i).symm.trans hi
  | act id a =>
    apply hpool
    exact Pool.present_of_update fun t ht => (Session.expired_act t a).symm.trans ht
  | expire id =>
    apply hpool
    exact Pool.present_of_update fun t ht => Bool.noConfusion ht
  | revise id profile =>
    apply hpool
    exact Pool.present_of_update fun t ht => ht

theorem run (hb : Booked limit moves s) (es : List Event) :
    Booked limit (moves ++ s.moves es) (s.run es) := by
  induction es generalizing moves s with
  | nil =>
    rw [Scene.moves, List.append_nil]
    exact hb
  | cons e es ih =>
    rw [Scene.moves, ← List.append_assoc]
    exact ih (hb.step e)

end Booked

/-- Whom a room is about after all that was noted, and what follows for those who ask it. -/
structure Coherent (limit : Nat) (moves : List Move) (s : Scene) (ids : List SessionId) :
    Prop where
  distinct : s.room.members.Nodup
  bounded : s.room.members.length ≤ limit
  ordered : ids.Sublist (moves.filterMap comer?).dedup
  mem_iff : ∀ id, id ∈ ids ↔ Stays moves id ∧ s.pool.present id ∧ s.pool.running id
  tells : s.room.Tells s.pool ids
  again : ∀ id ∈ s.room.members, s.pool.present id →
    (s.room.add s.pool id).1 = .ok false ∧ (s.room.add s.pool id).2.Tells s.pool ids
  absent : ∀ id ∉ s.room.members, (s.room.remove s.pool id).Tells s.pool ids
  heard : ∀ m sender, s.pool.Heard (s.room.broadcast s.pool m sender)
    (fun i => i ∈ ids ∧ some i ≠ sender) m.text
  counted : ∀ m sender, s.room.reception s.pool m sender = ids.countP fun i => some i ≠ sender ∧
    (s.room.broadcast s.pool m sender).get? i = (s.pool.get? i).map (·.withText m.text)

theorem Booked.coherent {moves : List Move} {s : Scene} (hb : Booked limit moves s) :
    Coherent limit moves s (s.room.liveMembers s.pool) where
  distinct := hb.ordered.nodup (List.nodup_dedup _)
  bounded := hb.bounded
  ordered := List.filter_sublist.trans hb.ordered
  mem_iff id := by
    rw [mem_liveMembers, Pool.isSome_live?, Bool.and_eq_true]
    constructor
    · rintro ⟨hid, hrun, hp⟩
      exact ⟨(hb.mem_iff id hp).1 hid, hp, hrun⟩
    · rintro ⟨hstays, hp, hrun⟩
      exact ⟨(hb.mem_iff id hp).2 hstays, hrun, hp⟩
  tells := tells_liveMembers s.room s.pool
  again id hid hp := by
    rw [add_of_mem hp hid]
    exact ⟨rfl, .of_liveMembers_eq (liveMembers_keep_present s.room s.pool)⟩
  absent id hid := .of_liveMembers_eq (liveMembers_remove hid)
  heard := heard_broadcast s.room s.pool
  counted := reception_eq s.room s.pool

/-- Whatever happened, all that a room tells is about the same company. -/
theorem company_told (name : String) (limit : Nat) (pool : Pool) (es : List Event) :
    let first : Scene := ⟨.create name limit, pool⟩
    ∃ ids, Coherent limit (first.moves es) (first.run es) ids := by
  intro first
  have hfirst : Booked limit [] first :=
    { limited := rfl
      bounded := Nat.zero_le _
      ordered := List.nil_sublist _
      mem_iff := fun _ _ => iff_of_false List.not_mem_nil not_stays_nil }
  exact ⟨_, (hfirst.run es).coherent⟩

example :
    let pool : Pool := ⟨[.create "a" .line 1, .create "b" .line 8, .create "c" .line 8,
      .create "d" .line 8]⟩
    let es : List Event := [.act 0 (.offer "x"), .add 1, .add 0, .remove 1, .add 2, .add 1, .add 0,
      .act 2 .stop, .add 3]
    let s := (Scene.mk (.create "r" 3) pool).run es
    s.room.members = [0, 2, 1] ∧ s.room.roster s.pool 1 = ["a", "b (You)"] ∧
      s.room.reception s.pool (.chat "e" "hi") none = 1 := by
  decide +kernel

end Room
end ChatRelay

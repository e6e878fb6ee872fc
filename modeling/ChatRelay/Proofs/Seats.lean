import ChatRelay.Proofs.Membership

/-! What takes up the seats of a room. Expired members are forgotten before anybody is let in, but
members who have stopped are not, so that a room can turn somebody away from seats on which nobody
live sits. -/

namespace ChatRelay
namespace Room

variable {room left : Room} {pool : Pool} {id : SessionId} {fault : Fault}

def halted (room : Room) (pool : Pool) : Nat :=
  room.members.countP fun id => (pool.reach? id).any (·.stopped)

theorem length_purge (room : Room) (pool : Pool) :
    (room.purge pool).members.length = room.size pool + room.halted pool := by
  unfold purge size liveMembers halted
  rw [← List.countP_eq_length_filter, ← List.countP_eq_length_filter]
  induction room.members with
  | nil => rfl
  | cons id ids ih =>
    rw [List.countP_cons, List.countP_cons, List.countP_cons, ih]
    have hseat : (if (pool.reach? id).isSome then 1 else 0) =
        (if (pool.live? id).isSome then 1 else 0) +
          if (pool.reach? id).any (·.stopped) then 1 else 0 := by
      unfold Pool.reach? Pool.live?
      cases pool.get? id with
      | none => rfl
      | some s => cases he : s.expired <;> cases hs : s.stopped <;> simp [Session.live, he, hs]
    omega

theorem add_eq_error_iff :
    room.add pool id = (.error fault, left) ↔
      id ∉ (room.purge pool).members ∧ room.limit ≤ (room.purge pool).members.length ∧
        fault = .roomFull room.name ∧ left = room.purge pool := by
  have hlimit : (room.purge pool).limit = room.limit := rfl
  have hname : (room.purge pool).name = room.name := rfl
  unfold add
  dsimp only
  rw [hlimit, hname]
  by_cases hc : (room.purge pool).contains id
  · rw [if_pos hc]
    refine ⟨fun h => ?_, fun h => absurd (contains_iff.1 hc) h.1⟩
    cases h
  · rw [if_neg hc]
    by_cases hl : room.limit ≤ (room.purge pool).members.length
    · rw [if_pos hl, Prod.mk.injEq, Except.error.injEq]
      exact ⟨fun h => ⟨mt contains_iff.2 hc, hl, h.1.symm, h.2.symm⟩,
        fun h => ⟨h.2.2.1.symm, h.2.2.2.symm⟩⟩
    · rw [if_neg hl]
      refine ⟨fun h => ?_, fun h => absurd h.2.1 hl⟩
      cases h

theorem add_full_iff (new : id ∉ room.members) :
    (room.add pool id).1 = .error (.roomFull room.name) ↔
      room.limit ≤ room.size pool + room.halted pool := by
  rw [← length_purge]
  constructor
  · intro h
    exact (add_eq_error_iff.1 (Prod.ext h rfl)).2.1
  · intro full
    have hout : id ∉ (room.purge pool).members := fun hi => new (mem_purge.1 hi).1
    rw [add_eq_error_iff.2 ⟨hout, full, rfl, rfl⟩]

end Room

namespace Hub

variable {limits : Limits} {h k : Hub} {id : SessionId} {name : String} {fault : Fault}

def roomFor (h : Hub) (name : String) : Room :=
  (h.rooms.get? name).getD (.create name h.limits.roomMembers)

theorem joinRoom_eq_error_iff :
    h.joinRoom id name = (.error fault, k) ↔
      h.roomSeeker id name = .error fault ∧ k = h ∨
        (∃ s, h.roomSeeker id name = .ok s) ∧ ∃ left,
          (h.roomFor name).add h.pool id = (.error fault, left) ∧ k = h.settleRoom name left := by
  unfold joinRoom roomFor
  cases hq : h.roomSeeker id name with
  | error other => simp [eq_comm]
  | ok s =>
    dsimp only
    rcases ((h.rooms.get? name).getD (.create name h.limits.roomMembers)).add h.pool id with
      ⟨other | _, left⟩
    · simp [eq_comm]
    · simp

theorem of_requester_eq_error (hq : h.requester id = .error fault) :
    fault = .shuttingDown ∨ fault = .unknownSession := by
  unfold requester at hq
  split at hq
  · exact .inl (Except.error.inj hq).symm
  · refine .inr ?_
    unfold session at hq
    split at hq
    · split at hq
      · cases hq
      · exact (Except.error.inj hq).symm
    · exact (Except.error.inj hq).symm

theorem of_check_eq_error {kind : Name.Kind} {limit : Nat}
    (hc : Name.check kind limit name = .error fault) :
    ∃ flaw, fault = .invalidName kind name flaw := by
  unfold Name.check at hc
  split at hc
  · exact ⟨_, (Except.error.inj hc).symm⟩
  · cases hc

theorem roomSeeker_ne_full {other : String} :
    h.roomSeeker id name ≠ .error (.roomFull other) := by
  intro he
  rcases of_bind_eq_error he with hq | ⟨s, hq, he⟩
  · rcases of_requester_eq_error hq with hf | hf <;> cases hf
  rcases of_bind_eq_error he with hc | ⟨_, hc, he⟩
  · obtain ⟨flaw, hf⟩ := of_check_eq_error hc
    cases hf
  · split at he <;> cases he

theorem handle_joinRoom_eq_error_iff :
    (h.handle (.joinRoom id name)).1 = .error fault ↔
      (h.joinRoom id name).1 = .error fault := by
  constructor
  · exact of_map_eq_error
  · intro he
    show (h.joinRoom id name).1.map Answer.roster = .error fault
    rw [he]
    rfl

theorem purge_roomFor (hg : h.ledger.Grounded) (hh : h.ledger.Housed) (name : String) :
    (h.roomFor name).purge h.pool = h.roomFor name :=
  (Room.purge_eq ..).trans (hh.roomAt_eq hg name)

theorem roomFor_sound (hh : h.ledger.Housed) (name : String) :
    (h.roomFor name).name = name ∧ (h.roomFor name).limit = h.limits.roomMembers ∧
      (h.roomFor name).members.length ≤ h.limits.roomMembers := by
  unfold roomFor
  cases hr : h.rooms.get? name with
  | none => exact ⟨rfl, rfl, Nat.zero_le _⟩
  | some room =>
    have ho := hh.orderly hr
    exact ⟨ho.named, ho.limited, ho.limited ▸ ho.bounded⟩

/-- What decides whether somebody is let into a room. -/
structure Seating (limits : Limits) (h : Hub) (id : SessionId) (name : String) : Prop where
  counted : (h.roomFor name).members.length =
    (h.roomFor name).size h.pool + (h.roomFor name).halted h.pool
  full_iff : (h.handle (.joinRoom id name)).1 = .error (.roomFull name) ↔
    (∃ s, h.roomSeeker id name = .ok s) ∧
      limits.roomMembers ≤ (h.roomFor name).size h.pool + (h.roomFor name).halted h.pool
  justly_iff : ((h.handle (.joinRoom id name)).1 = .error (.roomFull name) →
      limits.roomMembers ≤ (h.roomFor name).size h.pool) ↔
    ¬ ((∃ s, h.roomSeeker id name = .ok s) ∧ 0 < (h.roomFor name).halted h.pool ∧
      limits.roomMembers ≤ (h.roomFor name).size h.pool + (h.roomFor name).halted h.pool)

theorem full_iff_of_housed (hg : h.ledger.Grounded) (hh : h.ledger.Housed) (id : SessionId)
    (name : String) :
    (h.handle (.joinRoom id name)).1 = .error (.roomFull name) ↔
      (∃ s, h.roomSeeker id name = .ok s) ∧
        h.limits.roomMembers ≤ (h.roomFor name).size h.pool + (h.roomFor name).halted h.pool := by
  obtain ⟨hname, hlimit, -⟩ := roomFor_sound hh name
  rw [handle_joinRoom_eq_error_iff, ← Room.length_purge]
  constructor
  · intro he
    rcases joinRoom_eq_error_iff.1 (Prod.ext he rfl) with ⟨hq, -⟩ | ⟨hq, left, hadd, -⟩
    · exact absurd hq roomSeeker_ne_full
    · refine ⟨hq, ?_⟩
      rw [← hlimit]
      exact (Room.add_eq_error_iff.1 hadd).2.1
  · rintro ⟨hq, full⟩
    obtain ⟨-, -, nowhere⟩ := seeks_iff.2 hq
    -- who is in no room is not listed in this one
    have new : id ∉ ((h.roomFor name).purge h.pool).members := by
      rw [Room.purge_eq]
      exact hh.not_mem_roomAt hg nowhere name
    have hadd := Room.add_eq_error_iff.2 ⟨new, hlimit.symm ▸ full, rfl, rfl⟩
    rw [hname] at hadd
    rw [joinRoom_eq_error_iff.2 (.inr ⟨hq, _, hadd, rfl⟩)]

/-- Members who have stopped take up seats, and those who have expired do not. -/
theorem seats_taken (hr : h.Reachable limits) (id : SessionId) (name : String) :
    Seating limits h id name ∧ ∀ {room : Room} {pool : Pool} {id : SessionId}, id ∉ room.members →
      ((room.add pool id).1 = .error (.roomFull room.name) ↔
        room.limit ≤ room.size pool + room.halted pool) := by
  have hfull := full_iff_of_housed hr.grounded hr.housed id name
  have hcount := Room.length_purge (h.roomFor name) h.pool
  have hbound := (roomFor_sound hr.housed name).2.2
  rw [purge_roomFor hr.grounded hr.housed] at hcount
  rw [hr.limits_eq] at hfull hbound
  refine ⟨⟨hcount, hfull, ?_⟩, Room.add_full_iff⟩
  rw [hfull]
  constructor
  · rintro justly ⟨hq, hhalted, htaken⟩
    have hsize := justly ⟨hq, htaken⟩
    omega
  · rintro hnot ⟨hq, htaken⟩
    by_contra hfree
    exact hnot ⟨hq, by omega, htaken⟩

def vacancy : List Event :=
  [.create "a" .line 8, .create "b" .line 8, .request (.join 0), .request (.join 1),
    .request (.joinRoom 0 "r"), .act 0 .stop]

theorem seats_taken_vacancy :
    let limits : Limits := { Limits.standard with roomMembers := 1 }
    let h := (start limits none "").run vacancy
    (start limits none "").feasible vacancy ∧ (h.roomFor "r").size h.pool = 0 ∧
      (h.roomFor "r").halted h.pool = 1 ∧
      (h.handle (.joinRoom 1 "r")).1 = .error (.roomFull "r") ∧ Seating limits h 1 "r" ∧
      1 ∉ (⟨"r", 1, [0]⟩ : Room).members ∧
      ((⟨"r", 1, [0]⟩ : Room).add h.pool 1).1 = .error (.roomFull "r") := by
  intro limits h
  have hf : (start limits none "").feasible vacancy := by decide
  obtain ⟨hseating, hfull⟩ := seats_taken (reachable_run hf) 1 "r"
  have new : 1 ∉ (⟨"r", 1, [0]⟩ : Room).members := by decide
  exact ⟨hf, by decide +kernel, by decide +kernel, by decide +kernel, hseating, new,
    (hfull new).2 (by decide +kernel)⟩

end Hub
end ChatRelay

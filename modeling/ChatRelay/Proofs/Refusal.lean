import ChatRelay.Proofs.Seats

/-! What a request that fails leaves behind: the hub as it was. A room for which somebody asked in
vain may go with it, and only when all who are listed there have stopped. -/

namespace ChatRelay
namespace Hub

variable {limits : Limits} {h : Hub} {request : Request} {id : SessionId} {name : String}
  {room : Room} {fault : Fault}

theorem attempt_of_error {result : Except Fault Hub} (he : (h.attempt result).1 = .error fault) :
    (h.attempt result).2 = h := by
  rw [of_attempt_eq_error he]
  rfl

theorem handle_of_error (he : (h.handle request).1 = .error fault) :
    (h.handle request).2 = h ∨ ∃ id name, request = .joinRoom id name ∧
      fault = .roomFull (h.roomFor name).name ∧
        (h.handle request).2 = h.settleRoom name ((h.roomFor name).purge h.pool) := by
  cases request with
  | join | register | leaveRoom | whisper => exact .inl (attempt_of_error he)
  | history => exact .inl rfl
  | joinRoom id name =>
    have hfail : h.joinRoom id name = (.error fault, (h.joinRoom id name).2) :=
      Prod.ext (handle_joinRoom_eq_error_iff.1 he) rfl
    rcases joinRoom_eq_error_iff.1 hfail with ⟨-, hsame⟩ | ⟨-, left, hadd, hleft⟩
    · exact .inl hsame
    · obtain ⟨-, -, hfault, rfl⟩ := Room.add_eq_error_iff.1 hadd
      exact .inr ⟨id, name, rfl, hfault, hleft⟩
  | leave | broadcast | broadcastIn | chat | users | status | shutDown => cases he

/-- The hub `k` that is left when a request to `h` fails. -/
structure Unmoved (h k : Hub) (request : Request) (fault : Fault) : Prop where
  elsewhere : k = { h with rooms := k.rooms }
  added : ∀ {name room}, k.rooms.get? name = some room → h.rooms.get? name = some room
  kept : ∀ {name room id s}, h.rooms.get? name = some room → id ∈ room.members →
    h.pool.get? id = some s → s.stopped = false → k.rooms.get? name = some room
  gone : ∀ {name room}, h.rooms.get? name = some room → k.rooms.get? name = none →
    (∃ id, request = .joinRoom id name) ∧ fault = .roomFull name

theorem unmoved_self (h : Hub) (request : Request) (fault : Fault) :
    Unmoved h h request fault where
  elsewhere := rfl
  added hr := hr
  kept hr _ _ _ := hr
  gone hr hnone := nomatch hr.symm.trans hnone

theorem unmoved_of_full (hg : h.ledger.Grounded) (hh : h.ledger.Housed) (id : SessionId)
    (name : String) : Unmoved h (h.settleRoom name ((h.roomFor name).purge h.pool))
      (.joinRoom id name) (.roomFull name) := by
  have hrooms : (h.settleRoom name ((h.roomFor name).purge h.pool)).rooms =
      h.ledger.settled name (h.ledger.roomAt name) := by
    rw [rooms_settleRoom, Room.purge_eq]
    rfl
  refine ⟨rfl, ?_, ?_, ?_⟩
  · intro n room hr
    rw [hrooms] at hr
    exact hh.get?_of_refused hg hr
  · intro n room i s hr hi hs hrun
    rw [hrooms]
    have hrunning : h.ledger.running i = !s.stopped := Pool.view_of_get? hs
    exact hh.get?_refused hg name hr hi (by rw [hrunning, hrun, Bool.not_false])
  · intro n room hr hnone
    rw [hrooms, Ledger.get?_settled] at hnone
    by_cases hn : n = name
    · exact hn ▸ ⟨⟨id, rfl⟩, rfl⟩
    · rw [if_neg hn] at hnone
      exact nomatch hr.symm.trans hnone

/-- Whatever is asked for in vain, nothing that runs is touched. -/
theorem refusal_leaves (hr : h.Reachable limits) (he : (h.handle request).1 = .error fault) :
    Unmoved h (h.handle request).2 request fault := by
  rcases handle_of_error he with hsame | ⟨id, name, rfl, hfault, hleft⟩
  · rw [hsame]
    exact unmoved_self h request fault
  · rw [hfault, (roomFor_sound hr.housed name).1, hleft]
    exact unmoved_of_full hr.grounded hr.housed id name

def abandonment : List Event :=
  [.create "a" .line 8, .create "b" .line 8, .create "c" .line 8, .request (.join 0),
    .request (.join 1), .request (.join 2), .request (.joinRoom 0 "r"),
    .request (.joinRoom 2 "q"), .act 0 .stop]

theorem refusal_leaves_abandonment :
    let limits : Limits := { Limits.standard with roomMembers := 1 }
    let h := (start limits none "").run abandonment
    let k := (h.handle (.joinRoom 1 "r")).2
    (start limits none "").feasible abandonment ∧
      (h.handle (.joinRoom 1 "r")).1 = .error (.roomFull "r") ∧
      ["r", "q"].map h.rooms.get? = [some ⟨"r", 1, [0]⟩, some ⟨"q", 1, [2]⟩] ∧
      ["r", "q"].map k.rooms.get? = [none, some ⟨"q", 1, [2]⟩] ∧
      Unmoved h k (.joinRoom 1 "r") (.roomFull "r") := by
  intro limits h k
  have hf : (start limits none "").feasible abandonment := by decide
  have he : (h.handle (.joinRoom 1 "r")).1 = .error (.roomFull "r") := by decide +kernel
  exact ⟨hf, he, by decide +kernel, by decide +kernel, refusal_leaves (reachable_run hf) he⟩

end Hub
end ChatRelay

import ChatRelay.Proofs.Membership

/-! Who hears what is said. Everybody it is meant for whose queue can take it finds it there once,
whatever the queues of the others are like, and nobody else does. -/

namespace ChatRelay

namespace Session

def Accepts (s : Session) : Prop :=
  s.stopped = false ∧ s.outbox.intake = .open ∧ s.outbox.items.length < s.outbox.capacity

instance (s : Session) : Decidable s.Accepts := inferInstanceAs (Decidable (_ ∧ _ ∧ _))

def withText (s : Session) (text : String) : Session :=
  { s with outbox := { s.outbox with items := s.outbox.items ++ [.text text] } }

theorem offer_eq_ite (s : Session) (text : String) :
    s.offer text = if s.Accepts then s.withText text else s := by
  by_cases ha : s.Accepts
  · obtain ⟨hrun, hopen, hspace⟩ := ha
    have hpush : s.outbox.push (.text text) = .ok (s.withText text).outbox :=
      Outbox.push_eq_ok_iff.2 ⟨hopen, hspace, rfl⟩
    have hdeliver := deliver_eq_ok_iff.2 ⟨hrun, _, hpush, rfl⟩
    rw [if_pos ⟨hrun, hopen, hspace⟩, offer, hdeliver]
    rfl
  · rw [if_neg ha, offer]
    cases hd : s.deliver text with
    | error fault => rfl
    | ok t =>
      obtain ⟨hrun, box, hpush, -⟩ := deliver_eq_ok_iff.1 hd
      obtain ⟨hopen, hspace, -⟩ := Outbox.push_eq_ok_iff.1 hpush
      exact absurd ⟨hrun, hopen, hspace⟩ ha

end Session

namespace Pool

/-- All that lies between two pools: a text was queued once for everybody it was meant for who could
take it. -/
def Heard (p q : Pool) (meant : SessionId → Prop) [DecidablePred meant] (text : String) : Prop :=
  ∀ i, q.get? i = (p.get? i).map fun s => if meant i ∧ s.Accepts then s.withText text else s

theorem heard_fanOut {p : Pool} {target : SessionId → Bool} {meant : SessionId → Prop}
    [DecidablePred meant] (text : String)
    (h : ∀ i s, p.get? i = some s → s.stopped = false → (target i ↔ meant i)) :
    p.Heard (p.fanOut target text) meant text := by
  intro i
  rw [get?_fanOut]
  cases hs : p.get? i with
  | none => rfl
  | some s =>
    rw [Option.map_some, Option.map_some, Session.offer_eq_ite]
    -- whether a stopped session is picked does not matter: it takes nothing
    by_cases ha : s.Accepts
    · have ht := h i s hs ha.1
      by_cases hm : meant i
      · rw [if_pos (ht.2 hm), if_pos ha, if_pos ⟨hm, ha⟩]
      · rw [if_neg (mt ht.1 hm), if_neg fun h => hm h.1]
    · rw [if_neg ha, ite_self, if_neg fun h => ha h.2]

end Pool

namespace Hub

variable {limits : Limits} {h : Hub} {id : SessionId} {s : Session} {name : String} {room : Room}

theorem heard_announce (h : Hub) (m : Message) (id : SessionId) :
    h.pool.Heard (h.announce m (some id)).pool (fun i => i ∈ h.admitted ∧ i ≠ id) m.text := by
  refine Pool.heard_fanOut m.text fun i s _ _ => ?_
  rw [Bool.and_eq_true, List.contains_iff_mem, bne_iff_ne]
  exact and_congr_right fun _ => not_congr (Option.some_inj)

theorem heard_announceIn (hg : h.ledger.Grounded) (hh : h.ledger.Housed)
    (hr : h.rooms.get? name = some room) (m : Message) (id : SessionId) :
    h.pool.Heard (h.announceIn room m (some id)).pool (fun i => i ∈ room.members ∧ i ≠ id)
      m.text := by
  refine Pool.heard_fanOut m.text fun i s hs hrun => ?_
  -- members are admitted, so that nobody is passed over but who stopped
  have hlive : i ∈ room.members → (h.pool.live? i).isSome := by
    intro hi
    have hrunning : h.ledger.running i = !s.stopped := Pool.view_of_get? hs
    rw [live_ledger, hg.live_iff (hh.listed hr hi).1, hrunning, hrun]
    rfl
  rw [List.contains_iff_mem, Room.audience, List.mem_filter, Room.mem_liveMembers,
    decide_eq_true_iff]
  constructor
  · rintro ⟨⟨hi, -⟩, hne⟩
    exact ⟨hi, fun h => hne (congrArg some h)⟩
  · rintro ⟨hi, hne⟩
    exact ⟨⟨hi, hlive hi⟩, fun h => hne (Option.some.inj h)⟩

theorem chat_open (hq : h.requester id = .ok s)
    (hroom : s.profile.room = none) (body : String) :
    h.chat id body = (h.log .openChat s.displayName body).announce
      (.chat s.displayName body) (some id) := by
  rw [chat, hq]
  dsimp only
  rw [hroom]

theorem chat_in (hq : h.requester id = .ok s) (hroom : s.profile.room = some name)
    (hr : h.rooms.get? name = some room) (body : String) :
    h.chat id body = (h.log (.room name) s.displayName body).announceIn room
      (.roomChat s.displayName name body) (some id) := by
  rw [chat, hq]
  dsimp only
  rw [hroom]
  dsimp only
  rw [hr]

/-- What a running session says is heard by all others where it is, and changes nothing else but
the log. -/
theorem chat_heard (hr : h.Reachable limits) (going : h.stopped = false)
    (hs : h.session id = .ok s) (hrun : s.stopped = false) (body : String) :
    ∃ pool, h.handle (.chat id body) =
        (.ok .done, { h.log (.ofScope s.profile.room) s.displayName body with pool }) ∧
      (s.profile.room = none → h.pool.Heard pool (fun i => i ∈ h.admitted ∧ i ≠ id)
        ("[" ++ s.displayName ++ "]: " ++ body)) ∧
      ∀ name, s.profile.room = some name → ∃ room, h.rooms.get? name = some room ∧
        id ∈ room.members ∧ h.pool.Heard pool (fun i => i ∈ room.members ∧ i ≠ id)
          ("[" ++ s.displayName ++ " @ " ++ name ++ "]: " ++ body) := by
  have hg := hr.grounded
  have hh := hr.housed
  have hq : h.requester id = .ok s := requester_eq_ok_iff.2 ⟨going, hs⟩
  rw [handle]
  cases hroom : s.profile.room with
  | none =>
    rw [chat_open hq hroom]
    refine ⟨_, rfl, fun _ => ?_, fun name hname => nomatch hname⟩
    exact heard_announce (h.log .openChat s.displayName body) (.chat s.displayName body) id
  | some name =>
    obtain ⟨room, hr, hi⟩ := (roomsAgree_of_housed hg hh).home hs hrun hroom
    rw [chat_in hq hroom hr]
    refine ⟨_, rfl, fun hname => (nomatch hname), fun n hname => ?_⟩
    cases hname
    exact ⟨room, hr, hi, heard_announceIn hg hh hr (.roomChat s.displayName name body) id⟩

theorem whisper_eq {receiver : SessionId} {target : String} (hq : h.requester id = .ok s)
    (hheld : h.holder? target = some receiver) (body : String) :
    h.whisper id target body =
      .ok ((h.update receiver (·.tell (.privateFrom s.displayName body))).log
        (.pair s.displayName target) s.displayName body) := by
  rw [whisper, hq, hheld]
  rfl

theorem heard_tell (h : Hub) (m : Message) (receiver : SessionId) :
    h.pool.Heard (h.update receiver (·.tell m)).pool (· = receiver) m.text := by
  intro i
  rw [update, Pool.get?_update]
  by_cases hi : i = receiver
  · simp only [hi, if_true, true_and, Session.tell, Session.offer_eq_ite]
  · simp only [hi, if_false, false_and, Option.map_id']

def gathering : List Event :=
  [.create "a" .line 16, .create "b" .line 1, .create "c" .line 16, .request (.join 0),
    .request (.join 1), .request (.join 2), .request (.joinRoom 0 "r"), .request (.joinRoom 2 "r")]

theorem chat_heard_gathering :
    (start .standard none "").feasible gathering ∧
      ((start .standard none "").run gathering).stopped = false ∧
      ∃ s, ((start .standard none "").run gathering).session 0 = .ok s ∧ s.stopped = false ∧
        s.profile.room = some "r" ∧
        ∃ pool, ((start .standard none "").run gathering).handle (.chat 0 "hi") =
            (.ok .done, { ((start .standard none "").run gathering).log (.ofScope s.profile.room)
              s.displayName "hi" with pool }) ∧
          ∃ room, ((start .standard none "").run gathering).rooms.get? "r" = some room ∧
            0 ∈ room.members ∧ ((start .standard none "").run gathering).pool.Heard pool
              (fun i => i ∈ room.members ∧ i ≠ 0) "[a @ r]: hi" := by
  have hf : (start .standard none "").feasible gathering := by decide
  have hreach : ((start .standard none "").run gathering).Reachable .standard := reachable_run hf
  have going : ((start .standard none "").run gathering).stopped = false := by decide +kernel
  obtain ⟨s, hs⟩ : ∃ s, ((start .standard none "").run gathering).session 0 = .ok s :=
    exists_session_iff.2 (by decide +kernel)
  have hview : (((start .standard none "").run gathering).pool.get? 0).map
      (fun s => (s.stopped, s.profile.room, s.displayName)) = some (false, some "r", "a") := by
    decide +kernel
  rw [(session_eq_ok_iff.1 hs).2, Option.map_some, Option.some.injEq, Prod.mk.injEq,
    Prod.mk.injEq] at hview
  obtain ⟨hrun, hroom, hname⟩ := hview
  obtain ⟨pool, hchat, -, hheard⟩ := chat_heard hreach going hs hrun "hi"
  obtain ⟨room, hr, hi, hh⟩ := hheard "r" hroom
  rw [hname] at hh
  exact ⟨hf, going, s, hs, hrun, hroom, pool, hchat, room, hr, hi, hh⟩

end Hub
end ChatRelay

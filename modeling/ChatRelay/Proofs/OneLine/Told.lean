import ChatRelay.Proofs.Notices.Handle
import ChatRelay.Proofs.OneLine.Text

/-! What is said to whom while a request is handled. Nothing is taken off a queue; what is put on
one is a message, and a message is made of the names and addresses of sessions, of names that
passed their check, and of what the request says itself. -/

namespace ChatRelay

/-- A message of the relay that passes on nothing but what is good. -/
def Made (good : String → Prop) (text : String) : Prop :=
  ∃ m : Message, m.text = text ∧ ∀ part ∈ m.parts, good part

theorem made {good : String → Prop} {m : Message} (h : ∀ part ∈ m.parts, good part) :
    Made good m.text := ⟨m, rfl, h⟩

theorem Made.oneLine {text : String} (h : Made OneLine text) : OneLine text := by
  obtain ⟨m, rfl, hm⟩ := h
  exact Message.oneLine_text hm

/-! ### Sessions -/

namespace Session

variable {good fine : String → Prop} {s t u : Session} {text : String}

structure Gains (fine : String → Prop) (s t : Session) : Prop where
  remoteId : t.remoteId = s.remoteId
  queued : ∃ added, t.outbox.items = s.outbox.items ++ added ∧
    ∀ text, .text text ∈ added → fine text

theorem gains_of_same (hr : t.remoteId = s.remoteId) (ho : t.outbox = s.outbox) :
    s.Gains fine t :=
  ⟨hr, [], by rw [ho, List.append_nil], fun _ h => absurd h List.not_mem_nil⟩

theorem Gains.trans (h : s.Gains fine t) (h' : t.Gains fine u) : s.Gains fine u := by
  obtain ⟨as, has, hfa⟩ := h.queued
  obtain ⟨bs, hbs, hfb⟩ := h'.queued
  refine ⟨h'.remoteId.trans h.remoteId, as ++ bs, by rw [hbs, has, List.append_assoc], ?_⟩
  intro text ht
  rcases List.mem_append.1 ht with ht | ht
  · exact hfa text ht
  · exact hfb text ht

theorem Gains.mono {finer : String → Prop} (h : s.Gains fine t)
    (hf : ∀ text, fine text → finer text) : s.Gains finer t := by
  obtain ⟨added, hadded, hfine⟩ := h.queued
  exact ⟨h.remoteId, added, hadded, fun text ht => hf text (hfine text ht)⟩

theorem gains_withText (h : fine text) (s : Session) : s.Gains fine (s.withText text) := by
  refine ⟨rfl, [.text text], rfl, fun t ht => ?_⟩
  cases List.mem_singleton.1 ht
  exact h

theorem gains_offer (h : fine text) (s : Session) : s.Gains fine (s.offer text) := by
  rw [offer_eq_ite]
  split
  · exact gains_withText h s
  · exact gains_of_same rfl rfl

theorem gains_tellAll {ms : List Message} (h : ∀ m ∈ ms, fine m.text) (s : Session) :
    s.Gains fine (s.tellAll ms) := by
  induction ms generalizing s with
  | nil => exact gains_of_same rfl rfl
  | cons m ms ih =>
    have hm : s.Gains fine (s.tell m) := gains_offer (h m List.mem_cons_self) s
    exact hm.trans (ih (fun m' hm' => h m' (List.mem_cons_of_mem m hm')) (s.tell m))

theorem gains_closeAfterFlush (s : Session) : s.Gains fine s.closeAfterFlush := by
  obtain ⟨outbox, hpush, hs⟩ | ⟨-, hs⟩ := s.closeAfterFlush_cases
  · rw [hs]
    refine ⟨rfl, [.close], ?_, fun text ht => nomatch List.mem_singleton.1 ht⟩
    rw [(Outbox.push_eq_ok_iff.1 hpush).2.2]
  · rw [hs]
    exact gains_of_same rfl rfl

structure Voiced (good : String → Prop) (s : Session) : Prop where
  remoteId : good s.remoteId
  nickname : ∀ {name}, s.profile.nickname = some name → good name
  room : ∀ {name}, s.profile.room = some name → good name

theorem Voiced.displayName (h : s.Voiced good) : good s.displayName := by
  unfold Session.displayName
  cases hn : s.profile.nickname with
  | none => exact h.remoteId
  | some name => exact h.nickname hn

end Session

/-! ### Pools -/

namespace Pool

variable {fine : String → Prop} {p q r : Pool}

def Told (fine : String → Prop) (p q : Pool) : Prop :=
  ∀ i t, q.get? i = some t → ∃ s, p.get? i = some s ∧ s.Gains fine t

theorem Told.mono {finer : String → Prop} (h : p.Told fine q)
    (hf : ∀ text, fine text → finer text) : p.Told finer q := by
  intro i t ht
  obtain ⟨s, hs, hst⟩ := h i t ht
  exact ⟨s, hs, hst.mono hf⟩

end Pool

/-! ### The hub -/

namespace Hub

variable {good fine : String → Prop} {h k l : Hub} {id : SessionId} {s : Session}

theorem of_register_eq_ok {nickname : String} (hr : h.register id nickname = .ok k) :
    Name.flaw? .nickname h.limits.nameLength nickname = none ∧
      (k = h ∨ ∃ s, h.pool.get? id = some s ∧ k = h.rename id s nickname) := by
  obtain ⟨s, hq, hr⟩ := of_bind_eq_ok hr
  obtain ⟨_, hcheck, hr⟩ := of_bind_eq_ok hr
  refine ⟨Name.check_eq_ok_iff.1 hcheck, ?_⟩
  split at hr
  · cases hr
    exact .inr ⟨s, get?_of_requester hq, rfl⟩
  · split at hr
    · cases hr
      exact .inl rfl
    · cases hr

theorem of_whisper_eq_ok {target body : String} (hw : h.whisper id target body = .ok k) :
    ∃ s receiver, h.pool.get? id = some s ∧ h.holder? target = some receiver ∧
      k = (h.update receiver (·.tell (.privateFrom s.displayName body))).log
        (.pair s.displayName target) s.displayName body := by
  obtain ⟨s, hq, hw⟩ := of_bind_eq_ok hw
  split at hw
  · cases hw
  · next receiver hheld =>
    cases hw
    exact ⟨s, receiver, get?_of_requester hq, hheld, rfl⟩

structure Told (fine : String → Prop) (h k : Hub) : Prop where
  pool : h.pool.Told fine k.pool
  archive : k.archive = h.archive
  stamp : k.stamp = h.stamp

def Voiced (good : String → Prop) (h : Hub) : Prop :=
  ∀ ⦃i s⦄, h.pool.get? i = some s → s.Voiced good

end Hub

/-! ### Requests -/

def Request.said? : Request → Option String
  | chat _ body | whisper _ _ body => some body
  | _ => none

def Request.Clean (good : String → Prop) (h : Hub) : Request → Prop
  | chat _ body => good body
  | whisper _ target body => (h.holder? target).isSome → good body
  | broadcast m _ | broadcastIn _ m _ => ∀ part ∈ m.parts, good part
  | _ => True

namespace Hub

variable {good : String → Prop} {h k : Hub} {id : SessionId}

def Noted (good : String → Prop) (request : Request) (h k : Hub) : Prop :=
  k = h ∨ ∃ file sender body, request.said? = some body ∧ good sender ∧ good body ∧
    k = h.log file sender body

theorem Noted.pool_eq {request : Request} (hk : h.Noted good request k) : k.pool = h.pool := by
  rcases hk with rfl | ⟨_, _, _, _, _, _, rfl⟩ <;> rfl

theorem Noted.stamp_eq {request : Request} (hk : h.Noted good request k) : k.stamp = h.stamp := by
  rcases hk with rfl | ⟨_, _, _, _, _, _, rfl⟩ <;> rfl

theorem good_of_hears (hv : h.Voiced good) (hears : h.ledger.hears id) :
    good (h.nameOf id) ∧ ∀ {name}, (h.ledger.profile id).room = some name → good name := by
  obtain ⟨s, hq⟩ := exists_requester_iff.2 hears
  have hs := get?_of_requester hq
  rw [nameOf_of_get? hs, profile_of_requester hq]
  exact ⟨(hv hs).displayName, fun hr => (hv hs).room hr⟩

theorem made_farewell {name : String} (hwho : good (h.nameOf id)) (hname : good name) :
    ∀ n ∈ h.farewell id name, Made good n.message.text := by
  intro n hn
  unfold farewell at hn
  split at hn
  · cases hn
  · split at hn
    · cases List.mem_singleton.1 hn
      exact made (by simp [toRoom, Message.parts, hwho, hname])
    · cases hn

theorem made_chatter {body : String} (hwho : good (h.nameOf id))
    (hroom : ∀ {name}, (h.ledger.profile id).room = some name → good name) (hb : good body) :
    ∀ n ∈ h.chatter id body, Made good n.message.text := by
  intro n hn
  unfold chatter at hn
  cases hr : (h.ledger.profile id).room with
  | none =>
    rw [hr] at hn
    cases List.mem_singleton.1 hn
    exact made (by simp [toAll, Message.parts, hwho, hb])
  | some name =>
    rw [hr, Option.mem_toList] at hn
    obtain ⟨room, -, rfl⟩ := Option.map_eq_some_iff.1 hn
    exact made (by simp [toRoom, Message.parts, hwho, hroom hr, hb])

theorem made_welcome {remoteId : String} (h : good remoteId) :
    ∀ m ∈ Message.welcome remoteId, Made good m.text := by
  intro m hm
  refine made fun part hp => ?_
  simp only [Message.welcome, List.mem_cons, List.not_mem_nil, or_false] at hm
  rcases hm with rfl | rfl | rfl | rfl | rfl <;> simp_all [Message.parts]

theorem made_arrival (hv : h.Voiced good) :
    ∀ n ∈ h.notices (.join id), Made good n.message.text := by
  intro n hn
  rw [notices] at hn
  split at hn
  · cases hn
  · split at hn
    · cases hn
    · next s hs =>
      rcases List.mem_append.1 hn with hn | hn
      · obtain ⟨m, hm, rfl⟩ := List.mem_map.1 hn
        exact made_welcome (hv hs).remoteId m hm
      · cases List.mem_singleton.1 hn
        exact made (by simp [Message.parts, (hv hs).remoteId])

theorem made_departure (hv : h.Voiced good) :
    ∀ n ∈ h.notices (.leave id), Made good n.message.text := by
  intro n hn
  rw [notices, List.mem_ite_nil_right] at hn
  obtain ⟨hears, hn⟩ := hn
  obtain ⟨hwho, hroom⟩ := good_of_hears hv hears
  rcases List.mem_append.1 hn with hn | hn
  · cases hr : (h.ledger.profile id).room with
    | none =>
      rw [hr] at hn
      cases hn
    | some name =>
      rw [hr] at hn
      exact made_farewell hwho (hroom hr) n hn
  · cases List.mem_singleton.1 hn
    exact made (by simp [toAll, Message.parts, hwho])

theorem made_entrance {name : String} (hwho : good (h.nameOf id)) :
    ∀ n ∈ h.welcome id name, Made good n.message.text := by
  intro n hn
  rw [welcome, List.mem_ite_nil_right] at hn
  cases List.mem_singleton.1 hn.2
  exact made (by simp [toRoom, Message.parts, hwho])

theorem made_whisper {target body : String} (hwho : good (h.nameOf id))
    (hb : (h.holder? target).isSome → good body) :
    ∀ n ∈ ((h.holder? target).map (Message.privateFrom (h.nameOf id) body).toOne).toList,
      Made good n.message.text := by
  intro n hn
  obtain ⟨receiver, hheld, rfl⟩ := Option.map_eq_some_iff.1 (Option.mem_toList.1 hn)
  have hbody : good body := hb (by rw [hheld]; rfl)
  exact made (by simp [Message.toOne, Message.parts, hwho, hbody])

theorem made_notices (hv : h.Voiced good)
    (hn : ∀ {kind name}, Name.flaw? kind h.limits.nameLength name = none → good name)
    {request : Request} (hc : request.Clean good h) :
    ∀ n ∈ h.notices request, Made good n.message.text := by
  intro n hmem
  cases request with
  | join id => exact made_arrival hv n hmem
  | leave id => exact made_departure hv n hmem
  | register id nickname =>
    rw [notices, List.mem_ite_nil_right] at hmem
    obtain ⟨claimed, hmem⟩ := hmem
    have hwho := (good_of_hears hv claimed.1).1
    cases List.mem_singleton.1 hmem
    exact made (by simp [toAll, Message.parts, hwho, hn claimed.2.1])
  | joinRoom id name =>
    rw [notices, List.mem_ite_nil_right] at hmem
    obtain ⟨seeks, hmem⟩ := hmem
    exact made_entrance (good_of_hears hv seeks.1).1 n hmem
  | leaveRoom id name =>
    rw [notices, List.mem_ite_nil_right] at hmem
    obtain ⟨⟨hears, hin⟩, hmem⟩ := hmem
    obtain ⟨hwho, hroom⟩ := good_of_hears hv hears
    exact made_farewell hwho (hroom hin) n hmem
  | broadcast m sender =>
    rw [notices, List.mem_ite_nil_left] at hmem
    cases List.mem_singleton.1 hmem.2
    exact made hc
  | broadcastIn name m sender =>
    rw [notices, List.mem_ite_nil_left] at hmem
    obtain ⟨room, -, rfl⟩ := Option.map_eq_some_iff.1 (Option.mem_toList.1 hmem.2)
    exact made hc
  | chat id body =>
    rw [notices, List.mem_ite_nil_right] at hmem
    obtain ⟨hears, hmem⟩ := hmem
    obtain ⟨hwho, hroom⟩ := good_of_hears hv hears
    exact made_chatter hwho hroom hc n hmem
  | whisper id target body =>
    rw [notices, List.mem_ite_nil_right] at hmem
    obtain ⟨hears, hmem⟩ := hmem
    exact made_whisper (good_of_hears hv hears).1 hc n hmem
  | history | users | status | shutDown => cases hmem

theorem written_cases (hv : h.Voiced good) {request : Request} (hc : request.Clean good h) :
    h.written? request = none ∨ ∃ file sender body, request.said? = some body ∧ good sender ∧
      good body ∧ h.written? request = some (file, Archive.line h.stamp sender body) := by
  cases request with
  | chat id body =>
    rw [written?]
    split
    · next hears =>
      have hwho := (good_of_hears hv hears).1
      cases (h.ledger.profile id).room with
      | none => exact .inr ⟨_, _, body, rfl, hwho, hc, rfl⟩
      | some name =>
        cases hr : h.rooms.get? name with
        | none =>
          refine .inl ?_
          dsimp only
          rw [hr, Option.map_none]
        | some room =>
          refine .inr ⟨.room name, _, body, rfl, hwho, hc, ?_⟩
          dsimp only
          rw [hr, Option.map_some]
    · exact .inl rfl
  | whisper id target body =>
    rw [written?]
    split
    · next hears =>
      cases hheld : h.holder? target with
      | none => exact .inl (Option.map_none ..)
      | some receiver =>
        have hbody : good body := hc (by rw [hheld]; rfl)
        exact .inr ⟨_, _, body, rfl, (good_of_hears hv hears).1, hbody, Option.map_some ..⟩
    · exact .inl rfl
  | _ => exact .inl rfl

theorem told_handle (hv : h.Voiced good)
    (hn : ∀ {kind name}, Name.flaw? kind h.limits.nameLength name = none → good name)
    {request : Request} (hc : request.Clean good h) :
    ∃ k, h.Noted good request k ∧ k.Told (Made good) (h.handle request).2 := by
  have hrecords := h.records_handle request
  refine ⟨{ h with archive := h.recorded request }, ?_, ?_, ?_, ?_⟩
  · rcases written_cases hv hc with hnone | ⟨file, sender, body, hsaid, hsender, hbody, hsome⟩
    · rw [h.recorded_of_none hnone]
      exact .inl rfl
    · refine .inr ⟨file, sender, body, hsaid, hsender, hbody, ?_⟩
      rw [Hub.recorded, hsome]
      rfl
  · intro i t ht
    rw [get?_handle] at ht
    obtain ⟨s, hs, rfl⟩ := Option.map_eq_some_iff.1 ht
    have hnews : ∀ m ∈ h.news request i, Made good m.text := by
      intro m hm
      obtain ⟨n, hmem, hm⟩ := List.mem_filterMap.1 hm
      cases (Option.ite_none_right_eq_some.1 hm).2
      exact made_notices hv hn hc n hmem
    exact ⟨s, hs, (Session.gains_tellAll hnews s).trans (Session.gains_of_same rfl rfl)⟩
  · exact congrArg Prod.fst hrecords
  · exact congrArg Prod.snd hrecords

end Hub
end ChatRelay

import ChatRelay.Proofs.Ledger.Basic

/-! Every event does to the ledger of a hub what its silent counterpart does to a ledger. Telling
somebody something, and logging it, changes no ledger. -/

namespace ChatRelay
namespace Hub

variable {h : Hub}

theorem ledger_of_bare {p : Pool} (hp : p.bare = h.pool.bare) :
    ({ h with pool := p } : Hub).ledger = h.ledger := by
  have size : p.size = h.pool.size := by rw [← p.size_bare, hp, Pool.size_bare]
  simp only [ledger, Pool.profile, Pool.running, Pool.present, size]
  rw [Pool.view_eq_of_bare (fun _ => rfl) hp, Pool.view_eq_of_bare (fun _ => rfl) hp,
    Pool.view_eq_of_bare (fun _ => rfl) hp]

theorem ledger_announce (m : Message) (sender : Option SessionId) :
    (h.announce m sender).ledger = h.ledger := ledger_of_bare (Pool.bare_fanOut ..)

theorem ledger_announceIn (room : Room) (m : Message) (sender : Option SessionId) :
    (h.announceIn room m sender).ledger = h.ledger := ledger_of_bare (Pool.bare_fanOut ..)

theorem ledger_log (file : LogFile) (sender body : String) :
    (h.log file sender body).ledger = h.ledger := rfl

theorem ledger_update_of_bare (id : SessionId) {f : Session → Session}
    (hf : ∀ s, (f s).bare = s.bare) : (h.update id f).ledger = h.ledger :=
  ledger_of_bare (Pool.bare_update_of_bare fun s _ => hf s)

/-! ### Results and what they are made of -/

theorem of_bind_eq_ok {α β : Type} {x : Except Fault α} {f : α → Except Fault β} {b : β}
    (h : x >>= f = .ok b) : ∃ a, x = .ok a ∧ f a = .ok b := by
  cases x with
  | ok a => exact ⟨a, rfl, h⟩
  | error fault => cases h

theorem of_bind_eq_error {α β : Type} {x : Except Fault α} {f : α → Except Fault β}
    {fault : Fault} (h : x >>= f = .error fault) :
    x = .error fault ∨ ∃ a, x = .ok a ∧ f a = .error fault := by
  cases x with
  | ok a => exact .inr ⟨a, rfl, h⟩
  | error other => exact .inl (congrArg Except.error (Except.error.inj h))

theorem of_attempt_eq_error {r : Except Fault Hub} {fault : Fault}
    (he : (h.attempt r).1 = .error fault) : r = .error fault := by
  cases r with
  | ok k => cases he
  | error other =>
    cases he
    rfl

theorem of_attempt_eq_ok {r : Except Fault Hub} {a : Answer} (ha : (h.attempt r).1 = .ok a) :
    ∃ k, r = .ok k := by
  cases r with
  | ok k => exact ⟨k, rfl⟩
  | error other => cases ha

theorem of_map_eq_error {α β : Type} {x : Except Fault α} {f : α → β} {fault : Fault}
    (he : x.map f = .error fault) : x = .error fault := by
  cases x with
  | ok a => cases he
  | error other =>
    cases he
    rfl

theorem of_map_eq_ok {α β : Type} {x : Except Fault α} {f : α → β} {b : β}
    (hb : x.map f = .ok b) : ∃ a, x = .ok a ∧ f a = b := by
  cases x with
  | ok a => exact ⟨a, rfl, Except.ok.inj hb⟩
  | error other => cases hb

/-! ### Asking the hub -/

theorem session_eq_ok_iff {id : SessionId} {s : Session} :
    h.session id = .ok s ↔ id ∈ h.admitted ∧ h.pool.get? id = some s := by
  unfold session
  by_cases ha : id ∈ h.admitted
  · cases hp : h.pool.get? id <;> simp [ha]
  · simp [ha]

theorem exists_session_iff {id : SessionId} :
    (∃ s, h.session id = .ok s) ↔ h.ledger.knows id := by
  simp only [session_eq_ok_iff, exists_and_left, ← Option.isSome_iff_exists,
    Pool.isSome_get?_iff, Ledger.knows_iff]
  rfl

theorem requester_eq_ok_iff {id : SessionId} {s : Session} :
    h.requester id = .ok s ↔ h.stopped = false ∧ h.session id = .ok s := by
  unfold requester
  cases h.stopped <;> simp

theorem exists_requester_iff {id : SessionId} :
    (∃ s, h.requester id = .ok s) ↔ h.ledger.hears id := by
  simp only [requester_eq_ok_iff, exists_and_left, exists_session_iff, Ledger.hears_iff]
  rfl

theorem history_eq_ok_iff {id : SessionId} {limit : Nat} {scope : Option String}
    {lines : List String} :
    h.history id limit = .ok (scope, lines) ↔
      ∃ archive s, h.archive = some archive ∧ h.session id = .ok s ∧ scope = s.profile.room ∧
        archive.tail (.ofScope s.profile.room) limit = .ok lines := by
  unfold history
  constructor
  · intro hh
    split at hh
    · cases hh
    · next archive ha =>
      obtain ⟨s, hs, hh⟩ := of_bind_eq_ok hh
      obtain ⟨tail, ht, hh⟩ := of_bind_eq_ok hh
      cases hh
      exact ⟨archive, s, ha, hs, rfl, ht⟩
  · rintro ⟨archive, s, ha, hs, rfl, ht⟩
    rw [ha]
    dsimp only [bind, Except.bind]
    rw [hs]
    dsimp only
    rw [ht]
    rfl

theorem live_ledger (id : SessionId) : (h.pool.live? id).isSome = h.ledger.live id :=
  h.pool.isSome_live? id

theorem holder?_eq (nickname : String) : h.holder? nickname = h.ledger.holder? nickname := by
  unfold holder? Ledger.holder?
  congr 1
  funext id
  exact live_ledger id

theorem profile_of_session {id : SessionId} {s : Session} (hs : h.session id = .ok s) :
    h.ledger.profile id = s.profile := Pool.view_of_get? (session_eq_ok_iff.1 hs).2

/-! ### Single sessions -/

theorem ledger_update {id : SessionId} {s : Session} (hs : h.pool.get? id = some s)
    (f : Session → Session) :
    (h.update id f).ledger =
      { h.ledger with
        profile := Function.update h.ledger.profile id (f s).profile
        running := Function.update h.ledger.running id !(f s).stopped
        present := Function.update h.ledger.present id !(f s).expired } := by
  simp only [ledger, update, Pool.size_update, Pool.profile, Pool.running, Pool.present,
    Pool.view_update _ f hs]

theorem ledger_setRoom {id : SessionId} {s : Session} (hs : h.pool.get? id = some s)
    (room : Option String) :
    (h.update id (·.setRoom room)).ledger = h.ledger.setRoom id room := by
  have hp : h.ledger.profile id = s.profile := Pool.view_of_get? hs
  have hr : h.ledger.running id = !s.stopped := Pool.view_of_get? hs
  have he : h.ledger.present id = !s.expired := Pool.view_of_get? hs
  rw [ledger_update hs, Ledger.setRoom, hp]
  simp only [Session.setRoom, ← hr, ← he, Function.update_eq_self]

theorem ledger_create (remoteId : String) (transport : Transport) (capacity : Nat) :
    (h.create (.create remoteId transport capacity)).ledger = h.ledger.create := by
  have fresh : h.pool.profile h.pool.size = .fresh := by
    unfold Pool.profile Pool.view
    rw [Option.not_isSome_iff_eq_none.1 (mt Pool.isSome_get?_iff.1 (Nat.lt_irrefl _))]
    rfl
  simp only [ledger, create, Pool.size_add, Ledger.create, Pool.profile, Pool.running,
    Pool.present, Pool.view_add]
  congr 1
  exact Function.update_eq_self_iff.2 fresh.symm

theorem ledger_stop (id : SessionId) : (h.update id (·.stop)).ledger = h.ledger.stop id := by
  cases hs : h.pool.get? id with
  | none =>
    have hp : h.pool.update id (·.stop) = h.pool := Pool.update_of_get?_none hs _
    have hr : h.ledger.running id = false := by
      simp [ledger, Pool.running, Pool.view, hs]
    rw [update, hp, Ledger.stop, ← hr, Function.update_eq_self]
  | some s =>
    have hp : h.ledger.profile id = s.profile := Pool.view_of_get? hs
    have he : h.ledger.present id = !s.expired := Pool.view_of_get? hs
    rw [ledger_update hs, Ledger.stop]
    simp only [Session.stop, ← hp, ← he, Function.update_eq_self, Bool.not_true]

theorem ledger_expire (id : SessionId) : (h.update id (·.expire)).ledger = h.ledger.expire id := by
  cases hs : h.pool.get? id with
  | none =>
    have hp : h.pool.update id (·.expire) = h.pool := Pool.update_of_get?_none hs _
    have he : h.ledger.present id = false := by
      simp [ledger, Pool.present, Pool.view, hs]
    rw [update, hp, Ledger.expire, ← he, Function.update_eq_self]
  | some s =>
    have hp : h.ledger.profile id = s.profile := Pool.view_of_get? hs
    have hr : h.ledger.running id = !s.stopped := Pool.view_of_get? hs
    rw [ledger_update hs, Ledger.expire]
    simp only [Session.expire, ← hp, ← hr, Function.update_eq_self, Bool.not_true]

/-! ### Rooms -/

theorem isEmpty_eq (room : Room) : room.isEmpty h.pool = !room.members.any h.ledger.live := by
  rw [Bool.eq_iff_iff, Room.isEmpty_iff, Bool.not_eq_true', List.any_eq_false]
  refine forall₂_congr fun id _ => ?_
  rw [← live_ledger, Bool.not_eq_true, Option.isSome_eq_false_iff, Option.isNone_iff_eq_none]

theorem rooms_settleRoom (name : String) (room : Room) :
    (h.settleRoom name room).rooms = h.ledger.settled name room := by
  unfold settleRoom Ledger.settled
  rw [isEmpty_eq]
  cases room.members.any h.ledger.live <;> rfl

theorem ledger_settleRoom (name : String) (room : Room) :
    (h.settleRoom name room).ledger = { h.ledger with rooms := h.ledger.settled name room } := by
  rw [← rooms_settleRoom]
  rfl

theorem ledger_removeFromRoom {id : SessionId} {s : Session} (hs : h.pool.get? id = some s)
    (name : String) : (h.removeFromRoom id name).ledger = h.ledger.evict id name := by
  unfold removeFromRoom Ledger.evict
  have hrooms : h.ledger.roomsWithout id name = (h.ledger.setRoom id none).roomsWithout id name :=
    rfl
  rw [hrooms, ← ledger_setRoom hs none]
  -- what happens to the rooms comes after, and sees the session in none
  generalize h.update id (·.setRoom none) = k
  unfold Ledger.roomsWithout
  dsimp only
  rw [show k.ledger.rooms = k.rooms from rfl, show k.ledger.present = k.pool.present from rfl]
  cases k.rooms.get? name with
  | none => rfl
  | some room =>
    simp only [Room.remove_eq]
    cases room.contains id with
    | false => rfl
    | true =>
      simp only [if_true]
      rw [ledger_settleRoom]
      cases k.stopped
      · rw [if_neg Bool.false_ne_true, ledger_announceIn]
        rfl
      · rw [if_pos rfl]
        rfl

theorem roomSeeker_eq_ok_iff {id : SessionId} {name : String} {s : Session} :
    h.roomSeeker id name = .ok s ↔
      h.requester id = .ok s ∧ Name.flaw? .room h.limits.nameLength name = none ∧
        s.profile.room = none := by
  unfold roomSeeker Name.check
  cases h.requester id with
  | error fault => simp [bind, Except.bind]
  | ok t =>
    cases Name.flaw? .room h.limits.nameLength name with
    | some flaw => simp [bind, Except.bind]
    | none =>
      cases ht : t.profile.room with
      | none => simp [bind, Except.bind, pure, Except.pure]; grind
      | some current => simp [bind, Except.bind, throw, throwThe, MonadExceptOf.throw]; grind

theorem seeks_iff {id : SessionId} {name : String} :
    h.ledger.seeks id name ↔ ∃ s, h.roomSeeker id name = .ok s := by
  simp only [roomSeeker_eq_ok_iff, Ledger.seeks, ← exists_requester_iff]
  constructor
  · rintro ⟨⟨s, hs⟩, hn, hr⟩
    rw [profile_of_session (requester_eq_ok_iff.1 hs).2] at hr
    exact ⟨s, hs, hn, hr⟩
  · rintro ⟨s, hs, hn, hr⟩
    rw [profile_of_session (requester_eq_ok_iff.1 hs).2]
    exact ⟨⟨s, hs⟩, hn, hr⟩

theorem get?_of_requester {id : SessionId} {s : Session} (hs : h.requester id = .ok s) :
    h.pool.get? id = some s := (session_eq_ok_iff.1 (requester_eq_ok_iff.1 hs).2).2

theorem ledger_joinRoom (id : SessionId) (name : String) :
    (h.joinRoom id name).2.ledger = h.ledger.joinRoom id name := by
  unfold joinRoom Ledger.joinRoom
  cases hq : h.roomSeeker id name with
  | error fault =>
    have hn : ¬ h.ledger.seeks id name := by
      rw [seeks_iff, hq]
      rintro ⟨s, hs⟩
      cases hs
    rw [if_neg hn]
  | ok s =>
    have hs : h.pool.get? id = some s := get?_of_requester (roomSeeker_eq_ok_iff.1 hq).1
    rw [if_pos (seeks_iff.2 ⟨s, hq⟩)]
    have hroom : ((h.rooms.get? name).getD (.create name h.limits.roomMembers)).purge h.pool =
        h.ledger.roomAt name := Room.purge_eq ..
    simp only [Room.add, hroom]
    generalize h.ledger.roomAt name = room
    have hseat : ∀ room, (({ h with rooms := h.rooms.insert name room } : Hub).update id
        (·.setRoom (some name))).ledger = h.ledger.seat id name room := fun room =>
      ledger_setRoom (h := { h with rooms := h.rooms.insert name room }) hs (some name)
    by_cases hc : room.contains id
    · simp only [if_pos hc]
      rw [ledger_announceIn, hseat]
    · by_cases hl : room.limit ≤ room.members.length
      · simp only [if_neg hc, if_pos hl]
        exact ledger_settleRoom name room
      · simp only [if_neg hc, if_neg hl]
        rw [ledger_announceIn, hseat]

theorem ledger_leaveRoom (id : SessionId) (name : String) :
    (h.attempt (h.leaveRoom id name)).2.ledger = h.ledger.leaveRoom id name := by
  unfold leaveRoom Ledger.leaveRoom
  cases hq : h.requester id with
  | error fault =>
    have hn : ¬ h.ledger.hears id := by
      rw [← exists_requester_iff, hq]
      rintro ⟨s, hs⟩
      cases hs
    rw [if_neg fun hh => hn hh.1]
    rfl
  | ok s =>
    have hp : h.ledger.profile id = s.profile := profile_of_session (requester_eq_ok_iff.1 hq).2
    rw [hp]
    by_cases hr : s.profile.room = some name
    · have hh := exists_requester_iff.1 ⟨s, hq⟩
      rw [if_pos ⟨hh, hr⟩, ← ledger_removeFromRoom (get?_of_requester hq)]
      simp [bind, Except.bind, hr, pure, Except.pure, attempt]
    · rw [if_neg fun hh => hr hh.2]
      simp [bind, Except.bind, hr, throw, throwThe, MonadExceptOf.throw, attempt]

/-! ### Presence -/

theorem ledger_admitSession (id : SessionId) (s : Session) :
    (h.admitSession id s).ledger =
      { h.ledger with
        admitted := if h.admitted.contains id then h.admitted else h.admitted ++ [id] } := by
  have hk : (h.update id (·.tellAll (Message.welcome s.remoteId))).ledger = h.ledger :=
    ledger_update_of_bare id fun t => t.bare_tellAll _
  unfold admitSession
  rw [ledger_announce, ← hk]
  rfl

theorem ledger_join (id : SessionId) : (h.attempt (h.join id)).2.ledger = h.ledger.join id := by
  have hstop : h.ledger.stopped = h.stopped := rfl
  unfold join Ledger.join
  rw [hstop]
  by_cases hst : h.stopped
  · rw [if_pos hst, if_pos (.inl hst)]
    rfl
  · rw [if_neg hst]
    cases hs : h.pool.get? id with
    | none =>
      have hsize : h.ledger.size ≤ id := by
        refine Nat.le_of_not_lt fun hlt => ?_
        have hsome := Pool.isSome_get?_iff.2 hlt
        rw [hs] at hsome
        cases hsome
      rw [if_pos (.inr (.inl hsize))]
      rfl
    | some s =>
      have hsize : ¬ h.ledger.size ≤ id := Nat.not_le.2 (Pool.lt_size_of_get? hs)
      simp only [attempt, ledger_admitSession]
      by_cases ha : h.admitted.contains id
      · have hm : h.stopped ∨ h.ledger.size ≤ id ∨ id ∈ h.ledger.admitted :=
          .inr (.inr (List.contains_iff_mem.1 ha))
        simp only [if_pos ha, if_pos hm]
        rfl
      · have hm : ¬ (h.stopped ∨ h.ledger.size ≤ id ∨ id ∈ h.ledger.admitted) := by
          rintro (hc | hc | hc)
          · exact hst hc
          · exact hsize hc
          · exact ha (List.contains_iff_mem.2 hc)
        simp only [if_neg ha, if_neg hm]
        rfl

theorem ledger_vacateRoom {id : SessionId} {s : Session} (hs : h.pool.get? id = some s) :
    (h.vacateRoom id s).ledger =
      { h.ledger.setRoom id none with
        rooms := (h.ledger.profile id).room.elim h.ledger.rooms (h.ledger.roomsWithout id) } := by
  have hp : h.ledger.profile id = s.profile := Pool.view_of_get? hs
  unfold vacateRoom
  rw [hp]
  cases hr : s.profile.room with
  | some name => exact ledger_removeFromRoom hs name
  | none =>
    have hsame : { h.ledger.profile id with room := none } = h.ledger.profile id := by
      rw [hp, ← hr]
    rw [Ledger.setRoom, hsame, Function.update_eq_self]
    rfl

theorem ledger_freeNickname {id : SessionId} {s : Session}
    (hs : (h.ledger.profile id).nickname = s.profile.nickname) :
    (h.freeNickname id s).ledger =
      { h.ledger with nicknames := h.ledger.nicknamesWithout id } := by
  unfold freeNickname Ledger.nicknamesWithout
  rw [hs, show h.ledger.nicknames = h.nicknames from rfl]
  cases s.profile.nickname with
  | none => rfl
  | some nickname =>
    dsimp only
    cases h.nicknames.get? nickname with
    | none => rfl
    | some holder =>
      have hp : (h.pool.reach? holder).isNone ↔ h.ledger.present holder = false := by
        rw [show h.ledger.present = h.pool.present from rfl, ← Pool.isSome_reach?]
        cases h.pool.reach? holder <;> simp
      dsimp only
      by_cases hc : holder = id ∨ h.ledger.present holder = false
      · rw [if_pos hc, if_pos (hc.imp_right hp.2)]
        rfl
      · rw [if_neg hc, if_neg fun hf => hc (hf.imp_right hp.1)]
        rfl

theorem ledger_depart {id : SessionId} {s : Session} (hs : h.pool.get? id = some s) :
    (h.depart id s).ledger = h.ledger.depart id := by
  have hv := ledger_vacateRoom (h := { h with admitted := h.admitted.filter (· ≠ id) }) hs
  -- leaving the room keeps the nickname, which is freed next
  have hn : ((vacateRoom { h with admitted := h.admitted.filter (· ≠ id) } id s).ledger.profile
      id).nickname = s.profile.nickname := by
    rw [hv]
    simp only [Ledger.setRoom, Function.update_self]
    exact congrArg _ (Pool.view_of_get? hs)
  have hf := ledger_freeNickname hn
  have hw : Ledger.nicknamesWithout
      (vacateRoom { h with admitted := h.admitted.filter (· ≠ id) } id s).ledger id =
        h.ledger.nicknamesWithout id := by
    rw [hv]
    simp only [Ledger.nicknamesWithout, Ledger.setRoom, Function.update_self]
    rfl
  rw [hw, hv] at hf
  unfold depart
  dsimp only
  generalize freeNickname _ id s = k at hf ⊢
  have hk : (if k.stopped then k else k.announce (.departed s.displayName) none).ledger =
      k.ledger := by
    cases k.stopped
    · rw [if_neg Bool.false_ne_true, ledger_announce]
    · rw [if_pos rfl]
  generalize (if k.stopped then k else k.announce (.departed s.displayName) none) = m at hk ⊢
  have hb : ({ m with barrier := m.barrier.map (·.arrive) } : Hub).ledger =
      { m.ledger with barrier := m.ledger.barrier.map (·.arrive) } := rfl
  rw [hb, hk, hf]
  rfl

theorem ledger_leave (id : SessionId) : (h.leave id).ledger = h.ledger.leave id := by
  unfold leave Ledger.leave
  cases hq : h.session id with
  | error fault =>
    have hn : ¬ h.ledger.knows id := by
      rw [← exists_session_iff, hq]
      rintro ⟨s, hs⟩
      cases hs
    rw [if_neg hn]
  | ok s =>
    rw [if_pos (exists_session_iff.1 ⟨s, hq⟩)]
    exact ledger_depart (session_eq_ok_iff.1 hq).2

theorem ledger_rename {id : SessionId} {s : Session} (hs : h.pool.get? id = some s)
    (nickname : String) : (h.rename id s nickname).ledger = h.ledger.rename id nickname := by
  have hp : h.ledger.profile id = s.profile := Pool.view_of_get? hs
  have hr : h.ledger.running id = !s.stopped := Pool.view_of_get? hs
  have he : h.ledger.present id = !s.expired := Pool.view_of_get? hs
  have hu := ledger_update hs fun s => (s.setNickname (some nickname)).setAuthenticated true
  simp only [Session.setNickname, Session.setAuthenticated, ← hr, ← he,
    Function.update_eq_self] at hu
  unfold rename Ledger.rename
  rw [ledger_announce, hp]
  cases s.profile.nickname with
  | none =>
    exact congrArg (fun l : Ledger =>
      { l with nicknames := h.nicknames.insert nickname id }) hu
  | some old =>
    exact congrArg (fun l : Ledger =>
      { l with nicknames := (h.nicknames.erase old).insert nickname id }) hu

theorem ledger_register (id : SessionId) (nickname : String) :
    (h.attempt (h.register id nickname)).2.ledger = h.ledger.register id nickname := by
  unfold register Ledger.register Name.check
  rw [show h.limits = h.ledger.limits from rfl, holder?_eq]
  cases hq : h.requester id with
  | error fault =>
    have hn : ¬ h.ledger.hears id := by
      rw [← exists_requester_iff, hq]
      rintro ⟨s, hs⟩
      cases hs
    rw [if_neg fun hc => hn hc.1]
    rfl
  | ok s =>
    have hh : h.ledger.hears id := exists_requester_iff.1 ⟨s, hq⟩
    cases hn : Name.flaw? .nickname h.ledger.limits.nameLength nickname with
    | some flaw =>
      rw [if_neg fun hc => by rw [hc.2.1] at hn; cases hn]
      rfl
    | none =>
      cases hf : h.ledger.holder? nickname with
      | none =>
        rw [if_pos ⟨hh, hn, hf⟩]
        exact ledger_rename (get?_of_requester hq) nickname
      | some holder =>
        rw [if_neg fun hc => by rw [hc.2.2] at hf; cases hf]
        by_cases hid : holder = id
        · simp [bind, Except.bind, hid, pure, Except.pure, attempt]
        · simp [bind, Except.bind, hid, throw, throwThe, MonadExceptOf.throw, attempt]

theorem ledger_shutDown : h.shutDown.ledger = h.ledger.shutDown := by
  have hstop : h.ledger.stopped = h.barrier.isSome := rfl
  unfold shutDown Ledger.shutDown
  rw [hstop]
  cases h.barrier with
  | some b => rfl
  | none =>
    rw [if_neg (by simp), Ledger.halt]
    simp only [ledger, Pool.size_stopAll, Pool.profile, Pool.present, Pool.running_stopAll]
    rw [Pool.view_stopAll_of _ _ fun _ => rfl, Pool.view_stopAll_of _ _ fun _ => rfl]

/-! ### Talk -/

theorem ledger_chat (id : SessionId) (body : String) : (h.chat id body).ledger = h.ledger := by
  unfold chat
  cases h.requester id with
  | error fault => rfl
  | ok s =>
    dsimp only
    cases s.profile.room with
    | none =>
      dsimp only
      rw [ledger_announce, ledger_log]
    | some name =>
      dsimp only
      cases h.rooms.get? name with
      | none => rfl
      | some room =>
        dsimp only
        rw [ledger_announceIn, ledger_log]

theorem ledger_broadcast (m : Message) (sender : Option SessionId) :
    (h.broadcast m sender).ledger = h.ledger := by
  unfold broadcast
  split
  · rfl
  · exact ledger_announce m sender

theorem ledger_broadcastIn (name : String) (m : Message) (sender : Option SessionId) :
    (h.broadcastIn name m sender).ledger = h.ledger := by
  unfold broadcastIn
  split
  · rfl
  · split
    · rfl
    · exact ledger_announceIn _ m sender

theorem ledger_whisper (id : SessionId) (target body : String) :
    (h.attempt (h.whisper id target body)).2.ledger = h.ledger := by
  unfold whisper
  cases h.requester id with
  | error fault => rfl
  | ok s =>
    cases h.holder? target with
    | none => rfl
    | some receiver =>
      simp only [bind, Except.bind, pure, Except.pure, attempt]
      rw [ledger_log]
      exact ledger_update_of_bare receiver fun t => t.bare_tell _

theorem ledger_handle (request : Request) :
    (h.handle request).2.ledger = h.ledger.handle request := by
  cases request with
  | join id => exact ledger_join id
  | leave id => exact ledger_leave id
  | register id nickname => exact ledger_register id nickname
  | joinRoom id room => exact ledger_joinRoom id room
  | leaveRoom id room => exact ledger_leaveRoom id room
  | broadcast m sender => exact ledger_broadcast m sender
  | broadcastIn room m sender => exact ledger_broadcastIn room m sender
  | chat id body => exact ledger_chat id body
  | whisper id target body => exact ledger_whisper id target body
  | history id limit => rfl
  | users id => rfl
  | status => rfl
  | shutDown => exact ledger_shutDown

theorem ledger_act (id : SessionId) (a : Session.Act) :
    (h.update id (·.act a)).ledger = h.ledger ∨
      (h.update id (·.act a)).ledger = h.ledger.stop id := by
  by_cases hq : ∀ s, h.pool.get? id = some s → (s.act a).bare = s.bare
  · exact .inl (ledger_of_bare (Pool.bare_update_of_bare hq))
  · refine .inr ?_
    rw [← ledger_stop]
    refine ledger_of_bare (h := h.update id (·.stop)) (Pool.bare_update fun s hs => ?_)
    refine (s.bare_act a).resolve_left fun hb => hq fun t ht => ?_
    rw [hs] at ht
    cases ht
    exact hb

end Hub
end ChatRelay

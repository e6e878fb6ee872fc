import ChatRelay.Proofs.Notices.Basic

/-! Every request says what its notices say, and writes down at most one line. Besides that it
changes no session but in its profile, unless it is the shutdown. -/

namespace ChatRelay
namespace Hub

variable {h k : Hub} {id : SessionId} {s : Session} {name : String}

/-! ### Rooms -/

theorem live_update_profile {f : Session → Session}
    (hf : ∀ s, f s = { s with profile := (f s).profile }) (i : SessionId) :
    (h.update id f).ledger.live i = h.ledger.live i := by
  rw [← live_ledger, ← live_ledger, update]
  unfold Pool.live?
  rw [Pool.get?_update]
  split
  · cases h.pool.get? i with
    | none => rfl
    | some s =>
      have hlive : (f s).live = s.live := by rw [hf s]; rfl
      rw [Option.map_some]
      cases hl : s.live <;> simp [hlive, hl]
  · rfl

theorem nameOf_update {f : Session → Session} (hf : ∀ s, (f s).displayName = s.displayName)
    (i : SessionId) : (h.update id f).nameOf i = h.nameOf i := by
  unfold nameOf
  rw [update, Pool.get?_update]
  split
  · cases h.pool.get? i with
    | none => rfl
    | some s => exact hf s
  · rfl

theorem informed_removeFromRoom (h : Hub) (id : SessionId) (name : String) :
    h.pool.Informed (if h.stopped then [] else h.farewell id name)
      (h.removeFromRoom id name).pool := by
  have hout : h.pool.Informed [] (h.update id (·.setRoom none)).pool :=
    Pool.informed_profile fun _ => rfl
  have hlive : ∀ i, (h.update id (·.setRoom none)).ledger.live i = h.ledger.live i :=
    live_update_profile fun _ => rfl
  have hname : (h.update id (·.setRoom none)).nameOf id = h.nameOf id :=
    nameOf_update (f := (·.setRoom none)) (fun _ => rfl) id
  have hrooms : (h.update id (·.setRoom none)).rooms = h.rooms := rfl
  have hstopped : (h.update id (·.setRoom none)).stopped = h.stopped := rfl
  unfold removeFromRoom farewell
  dsimp only
  generalize h.update id (·.setRoom none) = k at *
  rw [hrooms, hstopped]
  cases h.rooms.get? name with
  | none => simpa only [ite_self] using hout
  | some room =>
    dsimp only
    by_cases hc : room.contains id
    · rw [if_pos hc, if_pos hc]
      cases h.stopped with
      | true => exact hout
      | false =>
        have hrest : ∀ i, h.ledger.live i → some i ≠ some id →
            (i ∈ (room.remove k.pool id).members ↔ i ∈ room.members) := by
          intro i hl hne
          have hreach : (k.pool.reach? i).isSome := by
            rw [← hlive, Ledger.live, Bool.and_eq_true] at hl
            rw [k.pool.isSome_reach?]
            exact hl.2
          rw [Room.mem_remove]
          exact ⟨fun hi => hi.1, fun hi => ⟨hi, fun heq => hne (congrArg some heq), hreach⟩⟩
        have hsaid : k.toRoom (room.remove k.pool id) (.memberLeft (k.nameOf id) name) (some id) =
            h.toRoom room (.memberLeft (h.nameOf id) name) (some id) := by
          rw [toRoom_congr hlive, hname, toRoom_congr_members _ hrest]
        have htold := hout.trans (k.informed_announceIn (room.remove k.pool id)
          (.memberLeft (k.nameOf id) name) (some id))
        rw [hsaid] at htold
        exact htold
    · rw [if_neg hc, if_neg hc, ite_self]
      exact hout

theorem informed_joinRoom (h : Hub) (id : SessionId) (name : String) :
    h.pool.Informed (h.notices (.joinRoom id name)) (h.joinRoom id name).2.pool := by
  rw [notices]
  unfold joinRoom
  cases hq : h.roomSeeker id name with
  | error fault =>
    have hn : ¬ h.ledger.seeks id name := by
      rw [seeks_iff, hq]
      rintro ⟨s, hs⟩
      cases hs
    rw [if_neg hn]
    exact h.pool.informed_refl
  | ok s =>
    have hs := get?_of_requester (roomSeeker_eq_ok_iff.1 hq).1
    rw [if_pos (seeks_iff.2 ⟨s, hq⟩), welcome, nameOf_of_get? hs]
    have hroom : ((h.rooms.get? name).getD (.create name h.limits.roomMembers)).purge h.pool =
        h.ledger.roomAt name := Room.purge_eq ..
    simp only [Room.add, hroom]
    generalize h.ledger.roomAt name = room
    -- whether the one who enters is listed makes no difference to who hears of it
    have hseat : ∀ room' : Room, (∀ i, i ≠ id → (i ∈ room'.members ↔ i ∈ room.members)) →
        h.pool.Informed [h.toRoom room (.memberJoined s.displayName) (some id)]
          ((({ h with rooms := h.rooms.insert name room' } : Hub).update id
            (·.setRoom (some name))).announceIn room' (.memberJoined s.displayName)
              (some id)).pool := by
      intro room' hm
      have hin : h.pool.Informed [] (h.update id (·.setRoom (some name))).pool :=
        Pool.informed_profile fun _ => rfl
      have hlive : ∀ i, (h.update id (·.setRoom (some name))).ledger.live i = h.ledger.live i :=
        live_update_profile fun _ => rfl
      have hsaid : (h.update id (·.setRoom (some name))).toRoom room'
          (.memberJoined s.displayName) (some id) =
            h.toRoom room (.memberJoined s.displayName) (some id) := by
        rw [toRoom_congr hlive]
        exact toRoom_congr_members _ fun i _ hne => hm i fun heq => hne (congrArg some heq)
      have htold := hin.trans (informed_announceIn _ room' (.memberJoined s.displayName) (some id))
      rw [hsaid] at htold
      exact htold
    by_cases hc : room.contains id
    · rw [if_pos hc, if_pos (.inl (Room.contains_iff.1 hc))]
      exact hseat room fun _ _ => Iff.rfl
    · rw [if_neg hc]
      by_cases hl : room.limit ≤ room.members.length
      · have hout : ¬ (id ∈ room.members ∨ room.members.length < room.limit) := by
          rintro (hi | hlt)
          · exact hc (Room.contains_iff.2 hi)
          · exact Nat.not_lt.2 hl hlt
        rw [if_pos hl, if_neg hout]
        exact h.pool.informed_refl
      · rw [if_neg hl, if_pos (.inr (Nat.lt_of_not_le hl))]
        apply hseat
        intro i hi
        simp [hi]

theorem informed_leaveRoom (h : Hub) (id : SessionId) (name : String) :
    h.pool.Informed (h.notices (.leaveRoom id name)) (h.attempt (h.leaveRoom id name)).2.pool := by
  rw [notices]
  unfold leaveRoom
  cases hq : h.requester id with
  | error fault =>
    rw [if_neg fun hh => not_hears_of_requester hq hh.1]
    exact h.pool.informed_refl
  | ok s =>
    rw [profile_of_requester hq]
    by_cases hr : s.profile.room = some name
    · have hgoing : h.stopped = false := (requester_eq_ok_iff.1 hq).1
      have hout := h.informed_removeFromRoom id name
      rw [hgoing, if_neg Bool.false_ne_true] at hout
      rw [if_pos ⟨hears_of_requester hq, hr⟩]
      simpa [bind, Except.bind, hr, pure, Except.pure, attempt] using hout
    · rw [if_neg fun hh => hr hh.2]
      simpa [bind, Except.bind, hr, throw, throwThe, MonadExceptOf.throw, attempt] using
        h.pool.informed_refl

/-! ### Presence -/

theorem informed_join (h : Hub) (id : SessionId) :
    h.pool.Informed (h.notices (.join id)) (h.attempt (h.join id)).2.pool := by
  rw [notices]
  unfold join
  cases h.stopped with
  | true => exact h.pool.informed_refl
  | false =>
    cases hs : h.pool.get? id with
    | none => exact h.pool.informed_refl
    | some s =>
      have hwelcome := h.pool.informed_tellAll id (Message.welcome s.remoteId)
      have haudience :
          (if h.admitted.contains id then h.admitted else h.admitted ++ [id]).contains =
          fun i => h.admitted.contains i || i == id := by
        funext i
        by_cases hc : id ∈ h.admitted
        · by_cases hi : i = id <;> simp [hc, hi]
        · simp [hc, Bool.beq_eq_decide_eq]
      have harrived := informed_announce
        { h.update id (·.tellAll (Message.welcome s.remoteId)) with
          admitted := if h.admitted.contains id then h.admitted else h.admitted ++ [id] }
        (.arrived s.remoteId) none
      rw [toAll_none] at harrived
      dsimp only at harrived
      rw [haudience] at harrived
      exact hwelcome.trans harrived

theorem informed_vacateRoom (hs : h.pool.get? id = some s) :
    h.pool.Informed (if h.stopped then [] else (h.ledger.profile id).room.elim [] (h.farewell id))
      (h.vacateRoom id s).pool := by
  have hp : h.ledger.profile id = s.profile := Pool.view_of_get? hs
  unfold vacateRoom
  rw [hp]
  cases s.profile.room with
  | none => simpa only [Option.elim_none, ite_self] using h.pool.informed_refl
  | some name => exact h.informed_removeFromRoom id name

theorem freeNickname_eq (h : Hub) (id : SessionId) (s : Session) :
    h.freeNickname id s = { h with nicknames := (h.freeNickname id s).nicknames } := by
  unfold freeNickname
  repeat' split
  all_goals rfl

theorem informed_leave (h : Hub) (id : SessionId) :
    h.pool.Informed (h.notices (.leave id)) (h.leave id).pool := by
  rw [notices]
  unfold leave
  cases hq : h.session id with
  | error fault =>
    have hn : ¬ h.ledger.hears id := by
      rw [Ledger.hears_iff, ← exists_session_iff, hq]
      rintro ⟨-, s, hs⟩
      cases hs
    rw [if_neg hn]
    exact h.pool.informed_refl
  | ok s =>
    have hs := (session_eq_ok_iff.1 hq).2
    have hout := informed_vacateRoom (h := { h with admitted := h.admitted.filter (· ≠ id) }) hs
    have hledger := ledger_vacateRoom (h := { h with admitted := h.admitted.filter (· ≠ id) }) hs
    have hadmitted := congrArg Ledger.admitted hledger
    have hbarrier := congrArg Ledger.barrier hledger
    have hhears : h.ledger.hears id ↔ h.stopped = false := by
      rw [Ledger.hears_iff, ← exists_session_iff]
      exact and_iff_left ⟨s, hq⟩
    unfold depart
    dsimp only
    rw [freeNickname_eq, nameOf_of_get? hs]
    generalize vacateRoom _ id s = k at hout hadmitted hbarrier ⊢
    have hstopped : k.stopped = h.stopped := congrArg Option.isSome hbarrier
    generalize (freeNickname k id s).nicknames = nicknames
    have hgone : ({ k with nicknames } : Hub).stopped = h.stopped := hstopped
    rw [hgone]
    cases hst : h.stopped with
    | true =>
      have hn : ¬ h.ledger.hears id := by
        rw [hhears, hst]
        exact Bool.noConfusion
      rw [if_neg hn, if_pos rfl]
      rw [show ({ h with admitted := h.admitted.filter (· ≠ id) } : Hub).stopped = true from hst,
        if_pos rfl] at hout
      exact hout
    | false =>
      rw [if_pos (hhears.2 hst), if_neg Bool.false_ne_true]
      rw [show ({ h with admitted := h.admitted.filter (· ≠ id) } : Hub).stopped = false from hst,
        if_neg Bool.false_ne_true] at hout
      have hdeparted := informed_announce { k with nicknames } (.departed s.displayName) none
      have haudience : ({ k with nicknames } : Hub).toAll (.departed s.displayName) none =
          h.toAll (.departed s.displayName) (some id) := by
        rw [toAll_none]
        unfold toAll
        congr 1
        funext i
        rw [show ({ k with nicknames } : Hub).admitted = h.admitted.filter (· ≠ id) from hadmitted]
        by_cases hi : i = id <;> simp [hi]
      rw [haudience] at hdeparted
      exact hout.trans hdeparted

theorem informed_rename (h : Hub) (id : SessionId) (s : Session) (nickname : String) :
    h.pool.Informed [h.toAll (.nicknameAnnounced s.displayName nickname) (some id)]
      (h.rename id s nickname).pool := by
  have hnamed : h.pool.Informed [] (h.update id fun s =>
      (s.setNickname (some nickname)).setAuthenticated true).pool :=
    Pool.informed_profile fun _ => rfl
  unfold rename
  dsimp only
  generalize Registry.insert _ nickname id = nicknames
  have hannounced := informed_announce (({ h with nicknames } : Hub).update id fun s =>
    (s.setNickname (some nickname)).setAuthenticated true)
      (.nicknameAnnounced s.displayName nickname) (some id)
  exact hnamed.trans hannounced

theorem informed_register (h : Hub) (id : SessionId) (nickname : String) :
    h.pool.Informed (h.notices (.register id nickname))
      (h.attempt (h.register id nickname)).2.pool := by
  rw [notices]
  unfold register Name.check
  rw [holder?_eq]
  cases hq : h.requester id with
  | error fault =>
    rw [if_neg fun hc => not_hears_of_requester hq hc.1]
    exact h.pool.informed_refl
  | ok s =>
    cases hn : Name.flaw? .nickname h.limits.nameLength nickname with
    | some flaw =>
      have hflawed : ¬ h.ledger.claims id nickname := by
        intro hc
        cases hn.symm.trans hc.2.1
      rw [if_neg hflawed]
      exact h.pool.informed_refl
    | none =>
      cases hf : h.ledger.holder? nickname with
      | none =>
        rw [if_pos ⟨hears_of_requester hq, hn, hf⟩, nameOf_of_get? (get?_of_requester hq)]
        exact h.informed_rename id s nickname
      | some holder =>
        have hheld : ¬ h.ledger.claims id nickname := by
          intro hc
          cases hf.symm.trans hc.2.2
        rw [if_neg hheld]
        by_cases hid : holder = id
        · simpa [bind, Except.bind, hid, pure, Except.pure, attempt] using h.pool.informed_refl
        · simpa [bind, Except.bind, hid, throw, throwThe, MonadExceptOf.throw, attempt] using
            h.pool.informed_refl

/-! ### Talk -/

theorem informed_chat (h : Hub) (id : SessionId) (body : String) :
    h.pool.Informed (h.notices (.chat id body)) (h.chat id body).pool := by
  rw [notices]
  unfold chat chatter
  cases hq : h.requester id with
  | error fault =>
    rw [if_neg (not_hears_of_requester hq)]
    exact h.pool.informed_refl
  | ok s =>
    rw [if_pos (hears_of_requester hq), profile_of_requester hq,
      nameOf_of_get? (get?_of_requester hq)]
    dsimp only
    cases s.profile.room with
    | none =>
      exact informed_announce (h.log .openChat s.displayName body) (.chat s.displayName body)
        (some id)
    | some name =>
      dsimp only
      cases h.rooms.get? name with
      | none => exact h.pool.informed_refl
      | some room =>
        exact informed_announceIn (h.log (.room name) s.displayName body) room
          (.roomChat s.displayName name body) (some id)

theorem informed_broadcast (h : Hub) (m : Message) (sender : Option SessionId) :
    h.pool.Informed (h.notices (.broadcast m sender)) (h.broadcast m sender).pool := by
  rw [notices, broadcast]
  cases h.stopped with
  | true => exact h.pool.informed_refl
  | false => exact h.informed_announce m sender

theorem informed_broadcastIn (h : Hub) (name : String) (m : Message) (sender : Option SessionId) :
    h.pool.Informed (h.notices (.broadcastIn name m sender))
      (h.broadcastIn name m sender).pool := by
  rw [notices, broadcastIn]
  cases h.stopped with
  | true => exact h.pool.informed_refl
  | false =>
    cases h.rooms.get? name with
    | none => exact h.pool.informed_refl
    | some room => exact h.informed_announceIn room m sender

theorem informed_whisper (h : Hub) (id : SessionId) (target body : String) :
    h.pool.Informed (h.notices (.whisper id target body))
      (h.attempt (h.whisper id target body)).2.pool := by
  rw [notices]
  unfold whisper
  cases hq : h.requester id with
  | error fault =>
    rw [if_neg (not_hears_of_requester hq)]
    exact h.pool.informed_refl
  | ok s =>
    rw [if_pos (hears_of_requester hq), nameOf_of_get? (get?_of_requester hq)]
    cases h.holder? target with
    | none => exact h.pool.informed_refl
    | some receiver =>
      exact h.pool.informed_tellAll receiver [.privateFrom s.displayName body]

theorem informed_handle (h : Hub) {request : Request} (hne : request ≠ .shutDown) :
    h.pool.Informed (h.notices request) (h.handle request).2.pool := by
  cases request with
  | join id => exact h.informed_join id
  | leave id => exact h.informed_leave id
  | register id nickname => exact h.informed_register id nickname
  | joinRoom id room => exact h.informed_joinRoom id room
  | leaveRoom id room => exact h.informed_leaveRoom id room
  | broadcast m sender => exact h.informed_broadcast m sender
  | broadcastIn room m sender => exact h.informed_broadcastIn room m sender
  | chat id body => exact h.informed_chat id body
  | whisper id target body => exact h.informed_whisper id target body
  | history | users | status => exact h.pool.informed_refl
  | shutDown => exact absurd rfl hne

theorem get?_eq_view (p : Pool) (i : SessionId) :
    p.get? i = (p.get? i).map fun s =>
      { s with profile := p.profile i, stopped := !p.running i } := by
  cases hs : p.get? i with
  | none => rfl
  | some s =>
    have hprofile : p.profile i = s.profile := Pool.view_of_get? hs
    have hrunning : p.running i = !s.stopped := Pool.view_of_get? hs
    rw [Option.map_some, hprofile, hrunning, Bool.not_not]

/-- All that a request does to a session: it is told its news, its profile becomes what the ledger
says, and it may be stopped. -/
theorem get?_handle (h : Hub) (request : Request) (i : SessionId) :
    (h.handle request).2.pool.get? i = (h.pool.get? i).map fun s =>
      { s.tellAll (h.news request i) with
        profile := (h.ledger.handle request).profile i
        stopped := !(h.ledger.handle request).running i } := by
  rw [← h.ledger_handle, get?_eq_view]
  by_cases hne : request = .shutDown
  · subst hne
    have hsaid : h.news .shutDown i = [] := rfl
    rw [handle, shutDown, hsaid]
    cases h.barrier with
    | some b => rfl
    | none =>
      dsimp only
      rw [Pool.get?_stopAll, Option.map_map]
      congr 1
      funext s
      dsimp only [Function.comp]
      split <;> rfl
  · rw [h.informed_handle hne i, Option.map_map]
    rfl

theorem items_handle {request : Request} {i : SessionId} {s t : Session}
    (hs : h.pool.get? i = some s) (ht : (h.handle request).2.pool.get? i = some t) :
    t.outbox.items = s.outbox.items ++ (h.queued request i).map fun m => .text m.text := by
  rw [get?_handle, hs, Option.map_some, Option.some.injEq] at ht
  subst ht
  have hqueued : h.queued request i = s.kept (h.news request i) := by
    rw [queued, hs, Option.elim_some]
  rw [hqueued]
  exact s.items_tellAll _

/-! ### What is written down -/

def records (h : Hub) : Option Archive × String := (h.archive, h.stamp)

def recorded (h : Hub) (request : Request) : Option Archive :=
  h.archive.map fun a => (h.written? request).elim a fun entry => a.append entry.1 entry.2

theorem recorded_of_none {request : Request} (h : Hub) (he : h.written? request = none) :
    h.recorded request = h.archive := by
  rw [recorded, he]
  exact Option.map_id_apply

theorem records_removeFromRoom (h : Hub) (id : SessionId) (name : String) :
    (h.removeFromRoom id name).records = h.records := by
  unfold removeFromRoom
  dsimp only
  repeat' split
  all_goals rfl

theorem records_joinRoom (h : Hub) (id : SessionId) (name : String) :
    (h.joinRoom id name).2.records = h.records := by
  unfold joinRoom
  dsimp only
  split
  · rfl
  · split <;> rfl

theorem records_leave (h : Hub) (id : SessionId) : (h.leave id).records = h.records := by
  have hroom : ∀ (k : Hub) (s : Session), (k.vacateRoom id s).records = k.records := by
    intro k s
    unfold vacateRoom
    split
    · exact k.records_removeFromRoom id _
    · rfl
  unfold leave
  split
  · rfl
  · next s _ =>
    have hgone := hroom { h with admitted := h.admitted.filter (· ≠ id) } s
    unfold depart
    dsimp only
    rw [freeNickname_eq]
    split <;> exact hgone

theorem records_register (h : Hub) (id : SessionId) (nickname : String) :
    (h.attempt (h.register id nickname)).2.records = h.records := by
  unfold register Name.check
  cases h.requester id with
  | error fault => rfl
  | ok s =>
    cases Name.flaw? .nickname h.limits.nameLength nickname with
    | some flaw => rfl
    | none =>
      cases h.holder? nickname with
      | none => rfl
      | some holder => by_cases hid : holder = id <;> simp only [hid, if_true, if_false] <;> rfl

theorem records_leaveRoom (h : Hub) (id : SessionId) (name : String) :
    (h.attempt (h.leaveRoom id name)).2.records = h.records := by
  unfold leaveRoom
  cases h.requester id with
  | error fault => rfl
  | ok s =>
    by_cases hr : s.profile.room = some name
    · have hout := h.records_removeFromRoom id name
      simpa [bind, Except.bind, hr, pure, Except.pure, attempt] using hout
    · simp [bind, Except.bind, hr, throw, throwThe, MonadExceptOf.throw, attempt]

theorem records_join (h : Hub) (id : SessionId) :
    (h.attempt (h.join id)).2.records = h.records := by
  unfold join
  split
  · rfl
  · split <;> rfl

theorem records_chat (h : Hub) (id : SessionId) (body : String) :
    (h.chat id body).records = (h.recorded (.chat id body), h.stamp) := by
  unfold chat
  cases hq : h.requester id with
  | error fault =>
    rw [h.recorded_of_none (by rw [written?, if_neg (not_hears_of_requester hq)])]
    rfl
  | ok s =>
    have hname : h.nameOf id = s.displayName := nameOf_of_get? (get?_of_requester hq)
    dsimp only
    cases hr : s.profile.room with
    | none =>
      rw [recorded, written?, if_pos (hears_of_requester hq), profile_of_requester hq, hr, hname]
      rfl
    | some name =>
      dsimp only
      cases hroom : h.rooms.get? name with
      | none =>
        have hnone : h.written? (.chat id body) = none := by
          rw [written?, if_pos (hears_of_requester hq), profile_of_requester hq, hr]
          dsimp only
          rw [hroom, Option.map_none]
        rw [h.recorded_of_none hnone]
        rfl
      | some room =>
        rw [recorded, written?, if_pos (hears_of_requester hq), profile_of_requester hq, hr, hname]
        dsimp only
        rw [hroom]
        rfl

theorem records_whisper (h : Hub) (id : SessionId) (target body : String) :
    (h.attempt (h.whisper id target body)).2.records =
      (h.recorded (.whisper id target body), h.stamp) := by
  unfold whisper
  cases hq : h.requester id with
  | error fault =>
    rw [h.recorded_of_none (by rw [written?, if_neg (not_hears_of_requester hq)])]
    rfl
  | ok s =>
    have hname : h.nameOf id = s.displayName := nameOf_of_get? (get?_of_requester hq)
    cases hheld : h.holder? target with
    | none =>
      have hnone : h.written? (.whisper id target body) = none := by
        rw [written?, if_pos (hears_of_requester hq), hheld, Option.map_none]
      rw [h.recorded_of_none hnone]
      rfl
    | some receiver =>
      rw [recorded, written?, if_pos (hears_of_requester hq), hheld, hname]
      simp only [Option.map_some, Option.elim_some]
      rfl

theorem records_handle (h : Hub) (request : Request) :
    (h.handle request).2.records = (h.recorded request, h.stamp) := by
  have hquiet : h.written? request = none → (h.handle request).2.records = h.records →
      (h.handle request).2.records = (h.recorded request, h.stamp) := by
    intro he hr
    rw [h.recorded_of_none he]
    exact hr
  cases request with
  | join id => exact hquiet rfl (h.records_join id)
  | leave id => exact hquiet rfl (h.records_leave id)
  | register id nickname => exact hquiet rfl (h.records_register id nickname)
  | joinRoom id room => exact hquiet rfl (h.records_joinRoom id room)
  | leaveRoom id room => exact hquiet rfl (h.records_leaveRoom id room)
  | broadcast m sender =>
    refine hquiet rfl ?_
    rw [handle, broadcast]
    split <;> rfl
  | broadcastIn room m sender =>
    refine hquiet rfl ?_
    rw [handle, broadcastIn]
    split
    · rfl
    · split <;> rfl
  | chat id body => exact h.records_chat id body
  | whisper id target body => exact h.records_whisper id target body
  | history | users | status => exact hquiet rfl rfl
  | shutDown =>
    refine hquiet rfl ?_
    rw [handle, shutDown]
    split <;> rfl

end Hub
end ChatRelay

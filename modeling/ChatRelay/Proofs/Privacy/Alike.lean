import ChatRelay.Proofs.Logs
import ChatRelay.Proofs.Notices.Handle

/-! Two hubs that differ in nothing but the texts on some queues and the contents of some logs. They
stay so whatever happens, and whoever reads neither those queues nor those logs cannot tell them
apart. -/

namespace ChatRelay

def Outgoing.muted : Outgoing → Outgoing
  | .text _ => .text ""
  | .close => .close

namespace Session

def muted (s : Session) : Session :=
  { s with outbox := { s.outbox with items := s.outbox.items.map Outgoing.muted } }

def veiled (hidden : Bool) (s : Session) : Session := if hidden then s.muted else s

variable {s t : Session}

theorem bare_veiled (hidden : Bool) (s : Session) : (s.veiled hidden).bare = s.bare := by
  cases hidden <;> rfl

theorem accepts_muted (s : Session) : s.muted.Accepts ↔ s.Accepts := by
  have hlength : s.muted.outbox.items.length = s.outbox.items.length := List.length_map _
  unfold Accepts
  rw [hlength]
  rfl

theorem muted_offer (s : Session) (text : String) : (s.offer text).muted = s.muted.offer "" := by
  rw [offer_eq_ite, offer_eq_ite]
  by_cases ha : s.Accepts
  · rw [if_pos ha, if_pos (s.accepts_muted.2 ha)]
    unfold muted withText
    rw [List.map_append]
    rfl
  · rw [if_neg ha, if_neg (mt s.accepts_muted.1 ha)]

theorem muted_offer_congr (h : s.muted = t.muted) (text other : String) :
    (s.offer text).muted = (t.offer other).muted := by
  rw [muted_offer, muted_offer, h]

theorem muted_tellAll_congr (h : s.muted = t.muted) (ms : List Message) :
    (s.tellAll ms).muted = (t.tellAll ms).muted := by
  induction ms generalizing s t with
  | nil => exact h
  | cons m ms ih => exact ih (muted_offer_congr h m.text m.text)

theorem muted_take (s : Session) : (s.act .take).muted = s.muted.act .take := by
  obtain ⟨remoteId, transport, profile, ⟨capacity, items, intake⟩, stopped, expired⟩ := s
  cases items <;> rfl

theorem muted_closeAfterFlush (s : Session) :
    s.closeAfterFlush.muted = s.muted.closeAfterFlush := by
  have hlength : s.muted.outbox.items.length = s.outbox.items.length := List.length_map _
  unfold closeAfterFlush Outbox.push
  rw [hlength]
  by_cases hopen : s.outbox.intake ≠ .open
  · rw [if_pos hopen, if_pos (show s.muted.outbox.intake ≠ .open from hopen)]
    rfl
  · rw [if_neg hopen, if_neg (show ¬ s.muted.outbox.intake ≠ .open from hopen)]
    by_cases hfull : s.outbox.capacity ≤ s.outbox.items.length
    · rw [if_pos hfull, if_pos (show s.muted.outbox.capacity ≤ _ from hfull)]
      rfl
    · rw [if_neg hfull, if_neg (show ¬ s.muted.outbox.capacity ≤ _ from hfull)]
      unfold muted
      dsimp only
      rw [List.map_append]
      rfl

theorem muted_act_congr (h : s.muted = t.muted) (a : Act) :
    (s.act a).muted = (t.act a).muted := by
  cases a with
  | offer text => exact muted_offer_congr h text text
  | take => rw [muted_take, muted_take, h]
  | closeAfterFlush =>
    rw [act, act, muted_closeAfterFlush, muted_closeAfterFlush, h]
  | stop => exact congrArg stop h
  | shut =>
    have hshut : ∀ s : Session, (s.act .shut).muted = s.muted.act .shut := by
      intro s
      unfold act Outbox.shut
      by_cases hgone : s.outbox.intake = .gone
      · rw [if_pos hgone, if_pos (show s.muted.outbox.intake = .gone from hgone)]
      · rw [if_neg hgone, if_neg (show ¬ s.muted.outbox.intake = .gone from hgone)]
        rfl
    rw [hshut, hshut, h]
  | abandon => exact congrArg (·.act .abandon) h

theorem veiled_congr {f : Session → Session} {hidden : Bool}
    (hf : ∀ s t : Session, s.muted = t.muted → (f s).muted = (f t).muted)
    (h : s.veiled hidden = t.veiled hidden) : (f s).veiled hidden = (f t).veiled hidden := by
  cases hidden with
  | true => exact hf s t h
  | false => exact congrArg f h

end Session

namespace Pool

variable {hidden : SessionId → Bool} {p q : Pool}

def Alike (hidden : SessionId → Bool) (p q : Pool) : Prop :=
  ∀ i, (p.get? i).map (Session.veiled (hidden i)) = (q.get? i).map (Session.veiled (hidden i))

theorem Alike.bare (ha : p.Alike hidden q) : p.bare = q.bare := by
  apply ext_get?
  intro i
  have hi := congrArg (Option.map Session.bare) (ha i)
  have hbare : Session.bare ∘ Session.veiled (hidden i) = Session.bare :=
    funext (Session.bare_veiled (hidden i))
  rw [Option.map_map, Option.map_map, hbare] at hi
  rw [get?_bare, get?_bare, hi]

theorem map_eq_of_bare {α : Type} {g : Session → α} (hg : ∀ s, g s.bare = g s)
    (hb : p.bare = q.bare) (i : SessionId) : (p.get? i).map g = (q.get? i).map g := by
  have hi := congrArg (fun r => (r.get? i).map g) hb
  have hbare : g ∘ Session.bare = g := funext hg
  simp only [get?_bare, Option.map_map, hbare] at hi
  exact hi

theorem Alike.map {f : SessionId → Session → Session} {p' q' : Pool} (ha : p.Alike hidden q)
    (hf : ∀ i s t, s.muted = t.muted → (f i s).muted = (f i t).muted)
    (hp : ∀ i, p'.get? i = (p.get? i).map (f i)) (hq : ∀ i, q'.get? i = (q.get? i).map (f i)) :
    p'.Alike hidden q' := by
  intro i
  have hi := ha i
  rw [hp, hq]
  cases hs : p.get? i with
  | none =>
    rw [hs, Option.map_none, eq_comm, Option.map_eq_none_iff] at hi
    rw [hi]
  | some s =>
    rw [hs, Option.map_some, eq_comm, Option.map_eq_some_iff] at hi
    obtain ⟨t, ht, hst⟩ := hi
    rw [ht]
    exact congrArg some (Session.veiled_congr (hf i) hst.symm)

theorem Alike.update {f : Session → Session} (ha : p.Alike hidden q) (id : SessionId)
    (hf : ∀ s t : Session, s.muted = t.muted → (f s).muted = (f t).muted) :
    (p.update id f).Alike hidden (q.update id f) := by
  apply ha.map (f := fun i s => if i = id then f s else s)
  · intro i s t hst
    split
    · exact hf s t hst
    · exact hst
  all_goals
    intro i
    rw [get?_update]
    split <;> simp

theorem Alike.add (ha : p.Alike hidden q) (s : Session) : (p.add s).Alike hidden (q.add s) := by
  intro i
  have hsize : p.size = q.size := by rw [← p.size_bare, ha.bare, q.size_bare]
  rw [get?_add, get?_add, hsize]
  split
  · rfl
  · exact ha i

end Pool

namespace Room

variable {p q : Pool}

theorem roster_of_bare (hb : p.bare = q.bare) (room : Room) (viewer : SessionId) :
    room.roster p viewer = room.roster q viewer := by
  have hlive : ∀ (r : Pool) i, (r.live? i).map (rosterEntry viewer i) =
      ((r.get? i).map fun s => if s.live then some (rosterEntry viewer i s) else none).join := by
    intro r i
    unfold Pool.live?
    cases r.get? i with
    | none => rfl
    | some s => cases hl : s.live <;> simp [hl]
  unfold roster
  congr 1
  funext i
  rw [hlive, hlive]
  exact congrArg Option.join (Pool.map_eq_of_bare (fun _ => rfl) hb i)

theorem add_of_bare (hb : p.bare = q.bare) (room : Room) (id : SessionId) :
    room.add p id = room.add q id := by
  have hpresent : p.present = q.present := Pool.view_eq_of_bare (fun _ => rfl) hb
  unfold add
  rw [purge_eq, purge_eq, hpresent]

end Room

namespace Hub

variable {hidden : SessionId → Bool} {secret : LogFile → Prop} {h k : Hub}

def SameLogs (secret : LogFile → Prop) (a b : Archive) : Prop :=
  ∀ file, ¬ secret file → a.get? file = b.get? file

/-- Hubs that differ in the texts on hidden queues, and in what stands in secret logs, at most. -/
structure Alike (hidden : SessionId → Bool) (secret : LogFile → Prop) (h k : Hub) : Prop where
  ledger : h.ledger = k.ledger
  stamp : h.stamp = k.stamp
  pool : h.pool.Alike hidden k.pool
  archive : Option.Rel (SameLogs secret) h.archive k.archive

theorem alike_refl (hidden : SessionId → Bool) (secret : LogFile → Prop) (h : Hub) :
    Alike hidden secret h h := by
  refine ⟨rfl, rfl, fun _ => rfl, ?_⟩
  cases h.archive with
  | none => exact .none
  | some a => exact .some fun _ _ => rfl

theorem roster_joinRoom {id : SessionId} {name : String} {s : Session}
    (hs : h.roomSeeker id name = .ok s) : (h.joinRoom id name).1 =
      ((((h.rooms.get? name).getD (.create name h.limits.roomMembers)).add h.pool id).1.map
        fun _ => ((((h.rooms.get? name).getD (.create name h.limits.roomMembers)).add h.pool
          id).2.roster (h.joinRoom id name).2.pool id)) := by
  unfold joinRoom
  rw [hs]
  dsimp only
  rcases ((h.rooms.get? name).getD (.create name h.limits.roomMembers)).add h.pool id with
    ⟨fault | new, room⟩
  · rfl
  · rfl

namespace Alike

theorem ledger_with {p q : Pool} (ha : Alike hidden secret h k) (hp : p.Alike hidden q) :
    ({ h with pool := p } : Hub).ledger = ({ k with pool := q } : Hub).ledger := by
  have hlimits : h.limits = k.limits := congrArg Ledger.limits ha.ledger
  have hadmitted : h.admitted = k.admitted := congrArg Ledger.admitted ha.ledger
  have hnicknames : h.nicknames = k.nicknames := congrArg Ledger.nicknames ha.ledger
  have hrooms : h.rooms = k.rooms := congrArg Ledger.rooms ha.ledger
  have hbarrier : h.barrier = k.barrier := congrArg Ledger.barrier ha.ledger
  have hbare := ledger_of_bare (h := { k with pool := q }) hp.bare
  rw [← hbare]
  simp only [Hub.ledger, hlimits, hadmitted, hnicknames, hrooms, hbarrier]

theorem stopped_eq (ha : Alike hidden secret h k) : h.stopped = k.stopped :=
  congrArg Ledger.stopped ha.ledger

theorem admitted_eq (ha : Alike hidden secret h k) : h.admitted = k.admitted :=
  congrArg Ledger.admitted ha.ledger

theorem rooms_eq (ha : Alike hidden secret h k) : h.rooms = k.rooms :=
  congrArg Ledger.rooms ha.ledger

theorem holder?_eq (ha : Alike hidden secret h k) (nickname : String) :
    h.holder? nickname = k.holder? nickname := by
  rw [Hub.holder?_eq, Hub.holder?_eq, ha.ledger]

theorem map_eq {α : Type} {g : Session → α} (ha : Alike hidden secret h k)
    (hg : ∀ s, g s.bare = g s) (i : SessionId) :
    (h.pool.get? i).map g = (k.pool.get? i).map g := Pool.map_eq_of_bare hg ha.pool.bare i

theorem nameOf_eq (ha : Alike hidden secret h k) (i : SessionId) : h.nameOf i = k.nameOf i := by
  unfold nameOf
  rw [ha.map_eq (g := (·.displayName)) (fun _ => rfl) i]

theorem get?_cases (ha : Alike hidden secret h k) (i : SessionId) :
    (h.pool.get? i = none ∧ k.pool.get? i = none) ∨
      ∃ s t, h.pool.get? i = some s ∧ k.pool.get? i = some t ∧ s.bare = t.bare := by
  have hi := ha.map_eq (g := Session.bare) (fun _ => rfl) i
  cases hs : h.pool.get? i with
  | none =>
    rw [hs, Option.map_none, eq_comm, Option.map_eq_none_iff] at hi
    exact .inl ⟨rfl, hi⟩
  | some s =>
    rw [hs, Option.map_some, eq_comm, Option.map_eq_some_iff] at hi
    obtain ⟨t, ht, hst⟩ := hi
    exact .inr ⟨s, t, rfl, ht, hst.symm⟩

theorem notices_eq (ha : Alike hidden secret h k) (request : Request) :
    h.notices request = k.notices request := by
  have hall : ∀ m sender, h.toAll m sender = k.toAll m sender := by
    intro m sender
    unfold toAll
    rw [ha.admitted_eq]
  have hroom : ∀ room m sender, h.toRoom room m sender = k.toRoom room m sender :=
    fun room m sender => toRoom_congr (fun i => by rw [ha.ledger]) room m sender
  have hfarewell : ∀ i, h.farewell i = k.farewell i := by
    intro i
    funext name
    unfold farewell
    rw [ha.rooms_eq, ha.nameOf_eq]
    simp only [hroom]
  cases request with
  | join id =>
    rw [notices, notices, ha.stopped_eq, ha.admitted_eq]
    rcases ha.get?_cases id with ⟨hs, ht⟩ | ⟨s, t, hs, ht, hst⟩
    · rw [hs, ht]
    · have haddress : s.remoteId = t.remoteId := (congrArg Session.remoteId hst :)
      rw [hs, ht]
      dsimp only
      rw [haddress]
  | _ =>
    simp only [notices, welcome, chatter, hall, hroom, hfarewell, ha.ledger, ha.stopped_eq,
      ha.rooms_eq, ha.nameOf_eq, ha.holder?_eq]

theorem written?_eq (ha : Alike hidden secret h k) (request : Request) :
    h.written? request = k.written? request := by
  cases request <;>
    simp only [written?, ha.ledger, ha.stamp, ha.rooms_eq, ha.nameOf_eq, ha.holder?_eq]

theorem recorded (ha : Alike hidden secret h k) (request : Request) :
    Option.Rel (SameLogs secret) (h.recorded request) (k.recorded request) := by
  unfold Hub.recorded
  rw [ha.written?_eq]
  have harchive := ha.archive
  revert harchive
  generalize h.archive = a
  generalize k.archive = b
  intro harchive
  cases harchive with
  | none => exact .none
  | @some a b hab =>
    refine .some fun file hf => ?_
    cases k.written? request with
    | none => exact hab file hf
    | some entry =>
      simp only [Option.elim_some]
      rw [Archive.get?_append, Archive.get?_append, hab file hf]

theorem step (ha : Alike hidden secret h k) (e : Event) :
    Alike hidden secret (h.step e) (k.step e) := by
  cases e with
  | create remoteId transport capacity =>
    have hp := ha.pool.add (.create remoteId transport capacity)
    exact ⟨ha.ledger_with hp, ha.stamp, hp, ha.archive⟩
  | act id a =>
    have hp := ha.pool.update id fun s t hst => Session.muted_act_congr hst a
    exact ⟨ha.ledger_with hp, ha.stamp, hp, ha.archive⟩
  | expire id =>
    have hp := ha.pool.update (f := (·.expire)) id fun s t hst => congrArg Session.expire hst
    exact ⟨ha.ledger_with hp, ha.stamp, hp, ha.archive⟩
  | tick stamp => exact ⟨ha.ledger, rfl, ha.pool, ha.archive⟩
  | request request =>
    have hrecords := h.records_handle request
    have hrecords' := k.records_handle request
    have hledger : (h.handle request).2.ledger = (k.handle request).2.ledger := by
      rw [ledger_handle, ledger_handle, ha.ledger]
    have hstamp : (h.handle request).2.stamp = (k.handle request).2.stamp :=
      (congrArg Prod.snd hrecords).trans (ha.stamp.trans (congrArg Prod.snd hrecords').symm)
    have harchive : Option.Rel (SameLogs secret) (h.handle request).2.archive
        (k.handle request).2.archive := by
      rw [show (h.handle request).2.archive = _ from congrArg Prod.fst hrecords,
        show (k.handle request).2.archive = _ from congrArg Prod.fst hrecords']
      exact ha.recorded request
    -- both hubs say the same to everybody, and a queue has room for it in both or in neither
    refine ⟨hledger, hstamp, ?_, harchive⟩
    refine ha.pool.map (f := fun i s =>
      { s.tellAll (h.news request i) with
        profile := (h.ledger.handle request).profile i
        stopped := !(h.ledger.handle request).running i }) ?_ (h.get?_handle request) ?_
    · intro i s t hst
      have htold := Session.muted_tellAll_congr hst (h.news request i)
      exact congrArg (fun s : Session =>
        { s with
          profile := (h.ledger.handle request).profile i
          stopped := !(h.ledger.handle request).running i }) htold
    · intro i
      have hget := k.get?_handle request i
      have hnews : k.news request i = h.news request i := by
        rw [news, news, ha.notices_eq]
      rw [hnews, ← ha.ledger] at hget
      exact hget

/-! ### Answers -/

theorem session_cases (ha : Alike hidden secret h k) (id : SessionId) :
    (∃ fault, h.session id = .error fault ∧ k.session id = .error fault) ∨
      ∃ s t, h.session id = .ok s ∧ k.session id = .ok t ∧ s.bare = t.bare := by
  unfold session
  rw [ha.admitted_eq]
  split
  · rcases ha.get?_cases id with ⟨hs, ht⟩ | ⟨s, t, hs, ht, hst⟩
    · rw [hs, ht]
      exact .inl ⟨_, rfl, rfl⟩
    · rw [hs, ht]
      exact .inr ⟨s, t, rfl, rfl, hst⟩
  · exact .inl ⟨_, rfl, rfl⟩

theorem requester_cases (ha : Alike hidden secret h k) (id : SessionId) :
    (∃ fault, h.requester id = .error fault ∧ k.requester id = .error fault) ∨
      ∃ s t, h.requester id = .ok s ∧ k.requester id = .ok t ∧ s.bare = t.bare := by
  unfold requester
  rw [ha.stopped_eq]
  split
  · exact .inl ⟨_, rfl, rfl⟩
  · exact ha.session_cases id

theorem limits_eq (ha : Alike hidden secret h k) : h.limits = k.limits :=
  congrArg Ledger.limits ha.ledger

theorem answer_join (ha : Alike hidden secret h k) (id : SessionId) :
    (h.handle (.join id)).1 = (k.handle (.join id)).1 := by
  rw [handle, handle, join, join, ha.stopped_eq]
  split
  · rfl
  · rcases ha.get?_cases id with ⟨hs, ht⟩ | ⟨s, t, hs, ht, -⟩
    · rw [hs, ht]
      rfl
    · rw [hs, ht]
      rfl

theorem answer_register (ha : Alike hidden secret h k) (id : SessionId) (nickname : String) :
    (h.handle (.register id nickname)).1 = (k.handle (.register id nickname)).1 := by
  rw [handle, handle, register, register, ha.limits_eq, ha.holder?_eq]
  rcases ha.requester_cases id with ⟨fault, hs, ht⟩ | ⟨s, t, hs, ht, -⟩
  · rw [hs, ht]
    rfl
  · rw [hs, ht]
    cases Name.check .nickname k.limits.nameLength nickname with
    | error fault => rfl
    | ok =>
      cases k.holder? nickname with
      | none => rfl
      | some holder =>
        dsimp only [bind, Except.bind]
        split <;> rfl

theorem roomSeeker_cases (ha : Alike hidden secret h k) (id : SessionId) (name : String) :
    (∃ fault, h.roomSeeker id name = .error fault ∧ k.roomSeeker id name = .error fault) ∨
      ∃ s t, h.roomSeeker id name = .ok s ∧ k.roomSeeker id name = .ok t := by
  unfold roomSeeker
  rw [ha.limits_eq]
  rcases ha.requester_cases id with ⟨fault, hs, ht⟩ | ⟨s, t, hs, ht, hst⟩
  · rw [hs, ht]
    exact .inl ⟨fault, rfl, rfl⟩
  · have hprofile : s.profile = t.profile := (congrArg Session.profile hst :)
    rw [hs, ht]
    cases Name.check .room k.limits.nameLength name with
    | error fault => exact .inl ⟨fault, rfl, rfl⟩
    | ok =>
      dsimp only [bind, Except.bind]
      rw [hprofile]
      cases t.profile.room with
      | none => exact .inr ⟨s, t, rfl, rfl⟩
      | some room => exact .inl ⟨_, rfl, rfl⟩

theorem answer_joinRoom (ha : Alike hidden secret h k) (id : SessionId) (name : String) :
    (h.handle (.joinRoom id name)).1 = (k.handle (.joinRoom id name)).1 := by
  have hafter : (h.joinRoom id name).2.pool.bare = (k.joinRoom id name).2.pool.bare :=
    (ha.step (.request (.joinRoom id name))).pool.bare
  have hjoined : (h.joinRoom id name).1 = (k.joinRoom id name).1 := by
    rcases ha.roomSeeker_cases id name with ⟨fault, hs, ht⟩ | ⟨s, t, hs, ht⟩
    · rw [joinRoom, joinRoom, hs, ht]
    · rw [roster_joinRoom hs, roster_joinRoom ht, ha.rooms_eq, ha.limits_eq,
        Room.add_of_bare ha.pool.bare]
      congr 1
      funext _
      exact Room.roster_of_bare hafter _ id
  exact congrArg (·.map Answer.roster) hjoined

theorem answer_leaveRoom (ha : Alike hidden secret h k) (id : SessionId) (name : String) :
    (h.handle (.leaveRoom id name)).1 = (k.handle (.leaveRoom id name)).1 := by
  rw [handle, handle, leaveRoom, leaveRoom]
  rcases ha.requester_cases id with ⟨fault, hs, ht⟩ | ⟨s, t, hs, ht, hst⟩
  · rw [hs, ht]
    rfl
  · have hprofile : s.profile = t.profile := (congrArg Session.profile hst :)
    rw [hs, ht]
    dsimp only [bind, Except.bind]
    rw [hprofile]
    split <;> rfl

theorem answer_whisper (ha : Alike hidden secret h k) (id : SessionId) (target body : String) :
    (h.handle (.whisper id target body)).1 = (k.handle (.whisper id target body)).1 := by
  rw [handle, handle, whisper, whisper, ha.holder?_eq]
  rcases ha.requester_cases id with ⟨fault, hs, ht⟩ | ⟨s, t, hs, ht, -⟩
  · rw [hs, ht]
    rfl
  · rw [hs, ht]
    cases k.holder? target <;> rfl

theorem answer_history (ha : Alike hidden secret h k)
    (readable : ∀ scope, ¬ secret (.ofScope scope)) (id : SessionId) (limit : Nat) :
    (h.handle (.history id limit)).1 = (k.handle (.history id limit)).1 := by
  have harchive := ha.archive
  have hsession := ha.session_cases id
  rw [handle, handle]
  dsimp only
  congr 1
  unfold history
  revert harchive
  generalize h.archive = a
  generalize k.archive = b
  intro harchive
  cases harchive with
  | none => rfl
  | @some a b hab =>
    rcases hsession with ⟨fault, hs, ht⟩ | ⟨s, t, hs, ht, hst⟩
    · rw [hs, ht]
      rfl
    · have hprofile : s.profile = t.profile := (congrArg Session.profile hst :)
      have htail := Archive.tail_congr (hab _ (readable t.profile.room)) limit
      rw [hs, ht]
      dsimp only [bind, Except.bind]
      rw [hprofile, htail]

theorem answer_users (ha : Alike hidden secret h k) (id : SessionId) :
    (h.handle (.users id)).1 = (k.handle (.users id)).1 := by
  have hentry : ∀ i, ((h.pool.get? i).map fun s =>
      (⟨s.displayName, decide (i = id)⟩ : UserEntry)) = (k.pool.get? i).map fun s =>
        ⟨s.displayName, decide (i = id)⟩ := fun i => ha.map_eq (fun _ => rfl) i
  simp only [handle, users, ha.admitted_eq, hentry]

theorem answer_status (ha : Alike hidden secret h k) :
    (h.handle .status).1 = (k.handle .status).1 := by
  have hnicknames : h.nicknames = k.nicknames := congrArg Ledger.nicknames ha.ledger
  have hpresent : h.pool.present = k.pool.present := congrArg Ledger.present ha.ledger
  rw [handle, handle, status, status, ha.admitted_eq, ha.rooms_eq, ha.stopped_eq, hnicknames]
  simp only [Pool.isSome_reach?, hpresent]

theorem answer_eq (ha : Alike hidden secret h k) (readable : ∀ scope, ¬ secret (.ofScope scope))
    (request : Request) : (h.handle request).1 = (k.handle request).1 := by
  cases request with
  | join id => exact ha.answer_join id
  | register id nickname => exact ha.answer_register id nickname
  | joinRoom id name => exact ha.answer_joinRoom id name
  | leaveRoom id name => exact ha.answer_leaveRoom id name
  | whisper id target body => exact ha.answer_whisper id target body
  | history id limit => exact ha.answer_history readable id limit
  | users id => exact ha.answer_users id
  | status => exact ha.answer_status
  | leave | chat | broadcast | broadcastIn | shutDown => rfl

end Alike
end Hub
end ChatRelay

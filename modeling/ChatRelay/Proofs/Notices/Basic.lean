import ChatRelay.Proofs.FanOut

/-! What is said while a request is handled: every message in order, each with those it is for. A
queue after a request is the queue before, to which what was said to its session was offered in
turn; a log grows by one line at most. -/

namespace ChatRelay

structure Notice where
  message : Message
  audience : SessionId → Bool

def Notice.news (notices : List Notice) (id : SessionId) : List Message :=
  notices.filterMap fun n => if n.audience id then some n.message else none

theorem Notice.news_append (ns ms : List Notice) (id : SessionId) :
    news (ns ++ ms) id = news ns id ++ news ms id := List.filterMap_append

theorem Notice.news_singleton (n : Notice) (id : SessionId) :
    news [n] id = if n.audience id then [n.message] else [] := by
  unfold news
  cases h : n.audience id <;> simp [h]

def Message.toOne (message : Message) (id : SessionId) : Notice := ⟨message, (· == id)⟩

theorem Notice.news_toOne (ms : List Message) (id i : SessionId) :
    news (ms.map (·.toOne id)) i = if i = id then ms else [] := by
  induction ms with
  | nil => simp [news]
  | cons m ms ih =>
    rw [List.map_cons, ← List.singleton_append, news_append, news_singleton, ih]
    by_cases hi : i = id <;> simp [Message.toOne, hi]

namespace Session

theorem tellAll_append (s : Session) (as bs : List Message) :
    s.tellAll (as ++ bs) = (s.tellAll as).tellAll bs := List.foldl_append

theorem offer_profile (s : Session) (p : Profile) (text : String) :
    ({ s with profile := p } : Session).offer text = { s.offer text with profile := p } := by
  have ha : ({ s with profile := p } : Session).Accepts ↔ s.Accepts := Iff.rfl
  rw [offer_eq_ite, offer_eq_ite]
  by_cases hs : s.Accepts
  · rw [if_pos hs, if_pos (ha.2 hs)]
    rfl
  · rw [if_neg hs, if_neg (mt ha.1 hs)]

theorem remoteId_tellAll (s : Session) (ms : List Message) :
    (s.tellAll ms).remoteId = s.remoteId := by
  rw [tellAll_eq]

theorem tellAll_profile (s : Session) (p : Profile) (ms : List Message) :
    ({ s with profile := p } : Session).tellAll ms = { s.tellAll ms with profile := p } := by
  induction ms generalizing s with
  | nil => rfl
  | cons m ms ih =>
    have hm : ({ s with profile := p } : Session).tell m = { s.tell m with profile := p } :=
      s.offer_profile p m.text
    rw [tellAll, List.foldl_cons, hm]
    exact ih (s.tell m)

def kept (s : Session) : List Message → List Message
  | [] => []
  | m :: ms => if s.Accepts then m :: (s.withText m.text).kept ms else s.kept ms

theorem kept_subset (s : Session) (ms : List Message) : s.kept ms ⊆ ms := by
  induction ms generalizing s with
  | nil => exact List.Subset.refl []
  | cons m ms ih =>
    rw [kept]
    split
    · exact List.cons_subset_cons m (ih _)
    · exact List.subset_cons_of_subset m (ih s)

theorem items_tellAll (s : Session) (ms : List Message) :
    (s.tellAll ms).outbox.items = s.outbox.items ++ (s.kept ms).map fun m => .text m.text := by
  induction ms generalizing s with
  | nil => exact (List.append_nil _).symm
  | cons m ms ih =>
    have hcons : s.tellAll (m :: ms) = (s.offer m.text).tellAll ms := rfl
    rw [hcons, offer_eq_ite, kept]
    by_cases ha : s.Accepts
    · have hqueued : (s.withText m.text).outbox.items = s.outbox.items ++ [.text m.text] := rfl
      rw [if_pos ha, if_pos ha, ih, hqueued, List.map_cons, List.append_assoc,
        List.singleton_append]
    · rw [if_neg ha, if_neg ha, ih]

theorem kept_eq_self {s : Session} {ms : List Message} (hrun : s.stopped = false)
    (hopen : s.outbox.intake = .open)
    (hspace : s.outbox.items.length + ms.length ≤ s.outbox.capacity) : s.kept ms = ms := by
  induction ms generalizing s with
  | nil => rfl
  | cons m ms ih =>
    rw [List.length_cons] at hspace
    have ha : s.Accepts := ⟨hrun, hopen, by omega⟩
    have hrest : (s.withText m.text).outbox.items.length + ms.length ≤
        (s.withText m.text).outbox.capacity := by
      simp only [withText, List.length_append, List.length_singleton]
      omega
    have hkept : (s.withText m.text).kept ms = ms := ih hrun hopen hrest
    rw [kept, if_pos ha, hkept]

end Session

namespace Pool

variable {p q r : Pool} {ns ms : List Notice} {id : SessionId}

/-- All that lies between two pools: what the notices say was said, and profiles may differ. -/
def Informed (p : Pool) (notices : List Notice) (q : Pool) : Prop :=
  ∀ i, q.get? i = (p.get? i).map fun s =>
    { s.tellAll (Notice.news notices i) with profile := q.profile i }

theorem informed_refl (p : Pool) : p.Informed [] p := by
  intro i
  cases hs : p.get? i with
  | none => rfl
  | some s =>
    have hp : p.profile i = s.profile := view_of_get? hs
    rw [Option.map_some, hp]
    rfl

theorem Informed.trans (h : p.Informed ns q) (h' : q.Informed ms r) :
    p.Informed (ns ++ ms) r := by
  intro i
  rw [h' i, h i, Option.map_map]
  congr 1
  funext s
  rw [Notice.news_append, Session.tellAll_append]
  exact congrArg (fun t : Session => { t with profile := r.profile i })
    (Session.tellAll_profile _ (q.profile i) _)

theorem informed_update {f : Session → Session}
    (hf : ∀ s, f s = { s.tellAll (Notice.news ns id) with profile := (f s).profile })
    (hrest : ∀ i, i ≠ id → Notice.news ns i = []) : p.Informed ns (p.update id f) := by
  intro i
  rw [get?_update]
  by_cases hi : i = id
  · subst hi
    rw [if_pos rfl]
    cases hs : p.get? i with
    | none => rfl
    | some s =>
      have hq : (p.update i f).profile i = (f s).profile := by
        apply view_of_get?
        rw [get?_update, if_pos rfl, hs, Option.map_some]
      rw [Option.map_some, Option.map_some, hq, ← hf s]
  · rw [if_neg hi, hrest i hi]
    cases hs : p.get? i with
    | none => rfl
    | some s =>
      have hq : (p.update id f).profile i = s.profile := by
        apply view_of_get?
        rw [get?_update, if_neg hi, hs]
      rw [Option.map_some, hq]
      rfl

theorem informed_profile {f : Session → Session}
    (hf : ∀ s, f s = { s with profile := (f s).profile }) : p.Informed [] (p.update id f) :=
  informed_update hf fun _ _ => rfl

theorem informed_tellAll (p : Pool) (id : SessionId) (ms : List Message) :
    p.Informed (ms.map (·.toOne id)) (p.update id (·.tellAll ms)) := by
  apply informed_update
  · intro s
    rw [Notice.news_toOne, if_pos rfl]
  · intro i hi
    rw [Notice.news_toOne, if_neg hi]

theorem informed_fanOut (p : Pool) (n : Notice) :
    p.Informed [n] (p.fanOut n.audience n.message.text) := by
  intro i
  rw [get?_fanOut]
  cases hs : p.get? i with
  | none => rfl
  | some s =>
    have hq : (p.fanOut n.audience n.message.text).profile i = s.profile := by
      have hbare := congrFun (view_eq_of_bare (d := .fresh) (g := (·.profile)) (fun _ => rfl)
        (bare_fanOut p n.audience n.message.text)) i
      exact hbare.trans (view_of_get? hs)
    rw [Option.map_some, Option.map_some, hq, Notice.news_singleton]
    cases n.audience i with
    | false => rfl
    | true =>
      have hprofile : (s.offer n.message.text).profile = s.profile := s.profile_offer _
      rw [if_pos rfl, if_pos rfl, ← hprofile]
      rfl

end Pool

/-! ### What a request says -/

namespace Hub

section Saying

variable (h : Hub)

def nameOf (id : SessionId) : String := ((h.pool.get? id).map (·.displayName)).getD ""

def toAll (message : Message) (sender : Option SessionId) : Notice :=
  ⟨message, fun i => h.admitted.contains i && some i != sender⟩

def toRoom (room : Room) (message : Message) (sender : Option SessionId) : Notice :=
  ⟨message, fun i => room.members.contains i && h.ledger.live i && some i != sender⟩

def farewell (id : SessionId) (name : String) : List Notice :=
  match h.rooms.get? name with
  | none => []
  | some room =>
    if room.contains id then [h.toRoom room (.memberLeft (h.nameOf id) name) (some id)] else []

def welcome (id : SessionId) (name : String) : List Notice :=
  let room := h.ledger.roomAt name
  if id ∈ room.members ∨ room.members.length < room.limit then
    [h.toRoom room (.memberJoined (h.nameOf id)) (some id)]
  else []

def chatter (id : SessionId) (body : String) : List Notice :=
  match (h.ledger.profile id).room with
  | none => [h.toAll (.chat (h.nameOf id) body) (some id)]
  | some name =>
    ((h.rooms.get? name).map (h.toRoom · (.roomChat (h.nameOf id) name body) (some id))).toList

/-- Everything that is said while a request is handled, in order. -/
def notices : Request → List Notice
  | .join id =>
    if h.stopped then []
    else match h.pool.get? id with
      | none => []
      | some s => (Message.welcome s.remoteId).map (·.toOne id) ++
          [⟨.arrived s.remoteId, fun i => h.admitted.contains i || i == id⟩]
  | .leave id =>
    if h.ledger.hears id then
      (h.ledger.profile id).room.elim [] (h.farewell id) ++
        [h.toAll (.departed (h.nameOf id)) (some id)]
    else []
  | .register id nickname =>
    if h.ledger.claims id nickname then
      [h.toAll (.nicknameAnnounced (h.nameOf id) nickname) (some id)]
    else []
  | .joinRoom id name => if h.ledger.seeks id name then h.welcome id name else []
  | .leaveRoom id name =>
    if h.ledger.hears id ∧ (h.ledger.profile id).room = some name then h.farewell id name else []
  | .broadcast message sender => if h.stopped then [] else [h.toAll message sender]
  | .broadcastIn name message sender =>
    if h.stopped then [] else ((h.rooms.get? name).map (h.toRoom · message sender)).toList
  | .chat id body => if h.ledger.hears id then h.chatter id body else []
  | .whisper id target body =>
    if h.ledger.hears id then
      ((h.holder? target).map (Message.privateFrom (h.nameOf id) body).toOne).toList
    else []
  | .history .. | .users _ | .status | .shutDown => []

def news (request : Request) (id : SessionId) : List Message := Notice.news (h.notices request) id

def queued (request : Request) (id : SessionId) : List Message :=
  (h.pool.get? id).elim [] fun s => s.kept (h.news request id)

def written? : Request → Option (LogFile × String)
  | .chat id body =>
    if h.ledger.hears id then
      match (h.ledger.profile id).room with
      | none => some (.openChat, Archive.line h.stamp (h.nameOf id) body)
      | some name => (h.rooms.get? name).map fun _ =>
          (.room name, Archive.line h.stamp (h.nameOf id) body)
    else none
  | .whisper id target body =>
    if h.ledger.hears id then
      (h.holder? target).map fun _ =>
        (.pair (h.nameOf id) target, Archive.line h.stamp (h.nameOf id) body)
    else none
  | _ => none

end Saying

variable {h k : Hub} {id i : SessionId} {s : Session} {name : String}

theorem nameOf_of_get? (hs : h.pool.get? id = some s) : h.nameOf id = s.displayName := by
  rw [nameOf, hs]
  rfl

theorem hears_of_requester (hq : h.requester id = .ok s) : h.ledger.hears id :=
  exists_requester_iff.1 ⟨s, hq⟩

theorem not_hears_of_requester {fault : Fault} (hq : h.requester id = .error fault) :
    ¬ h.ledger.hears id := by
  rw [← exists_requester_iff, hq]
  rintro ⟨s, hs⟩
  cases hs

theorem profile_of_requester (hq : h.requester id = .ok s) : h.ledger.profile id = s.profile :=
  profile_of_session (requester_eq_ok_iff.1 hq).2

theorem toAll_none (h : Hub) (m : Message) : h.toAll m none = ⟨m, h.admitted.contains⟩ := by
  unfold toAll
  congr 1
  funext i
  exact Bool.and_true _

theorem audience_toAll {m : Message} : (h.toAll m (some id)).audience i ↔
    i ∈ h.admitted ∧ i ≠ id := by
  unfold toAll
  rw [Bool.and_eq_true, List.contains_iff_mem, bne_iff_ne]
  exact and_congr_right fun _ => not_congr Option.some_inj

theorem audience_toRoom {room : Room} {m : Message} (hne : i ≠ id) (hl : h.ledger.live i) :
    (h.toRoom room m (some id)).audience i = decide (i ∈ room.members) := by
  have hother : (some i != some id) = true := bne_iff_ne.2 fun heq => hne (Option.some.inj heq)
  unfold toRoom
  dsimp only
  rw [hl, hother, Bool.and_true, Bool.and_true, Bool.eq_iff_iff, List.contains_iff_mem,
    decide_eq_true_iff]

theorem informed_announce (h : Hub) (m : Message) (sender : Option SessionId) :
    h.pool.Informed [h.toAll m sender] (h.announce m sender).pool :=
  h.pool.informed_fanOut (h.toAll m sender)

theorem contains_audience (room : Room) (m : Message) (sender : Option SessionId) :
    (room.audience h.pool sender).contains = (h.toRoom room m sender).audience := by
  funext i
  rw [Bool.eq_iff_iff, List.contains_iff_mem, Room.audience, List.mem_filter,
    Room.mem_liveMembers, live_ledger]
  simp [toRoom, and_assoc]

theorem informed_announceIn (h : Hub) (room : Room) (m : Message) (sender : Option SessionId) :
    h.pool.Informed [h.toRoom room m sender] (h.announceIn room m sender).pool := by
  unfold announceIn Room.broadcast
  rw [contains_audience room m sender]
  exact h.pool.informed_fanOut (h.toRoom room m sender)

theorem toRoom_congr (hl : ∀ i, k.ledger.live i = h.ledger.live i) (room : Room) (m : Message)
    (sender : Option SessionId) : k.toRoom room m sender = h.toRoom room m sender := by
  unfold toRoom
  simp only [hl]

theorem toRoom_congr_members {room room' : Room} (m : Message) {sender : Option SessionId}
    (hm : ∀ i, h.ledger.live i → some i ≠ sender → (i ∈ room.members ↔ i ∈ room'.members)) :
    h.toRoom room m sender = h.toRoom room' m sender := by
  unfold toRoom
  congr 1
  funext i
  rw [Bool.eq_iff_iff]
  simp only [Bool.and_eq_true, List.contains_iff_mem, bne_iff_ne, and_assoc]
  constructor
  · rintro ⟨hi, hl, hne⟩
    exact ⟨(hm i hl hne).1 hi, hl, hne⟩
  · rintro ⟨hi, hl, hne⟩
    exact ⟨(hm i hl hne).2 hi, hl, hne⟩

end Hub
end ChatRelay

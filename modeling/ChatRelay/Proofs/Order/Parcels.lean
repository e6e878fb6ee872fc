import ChatRelay.Proofs.Notices.Handle

/-! What goes onto a queue, with where it came from. The fan-outs of a run are numbered in the order
in which the hub makes them; besides them a queue takes the lines that welcome a new session, and
what is meant for its session alone. -/

namespace ChatRelay

inductive Source
  | fanOut (n : Nat)
  | welcome
  | aside
  deriving DecidableEq, Repr

structure Parcel where
  source : Source
  item : Outgoing
  deriving DecidableEq, Repr

namespace Parcel

def number? (p : Parcel) : Option Nat :=
  match p.source with
  | .fanOut n => some n
  | .welcome | .aside => none

/-- The order of a queue: by number, with every welcome before all fan-outs. -/
def Precedes (p q : Parcel) : Prop :=
  match p.source, q.source with
  | .fanOut m, .fanOut n => m < n
  | .fanOut _, .welcome => False
  | _, _ => True

end Parcel

def Notice.numbered (notices : List Notice) (k : Nat) (o : SessionId) : List Parcel :=
  (notices.zipIdx k).filterMap fun n =>
    if n.1.audience o then some ⟨.fanOut n.2, .text n.1.message.text⟩ else none

/-- One call that tells everybody, or everybody in a room, but the sender. -/
structure FanOut where
  notice : Notice
  sender : Option SessionId

namespace Request

def sender? : Request → Option SessionId
  | .leave id | .register id _ | .joinRoom id _ | .leaveRoom id _ | .chat id _ => some id
  | .broadcast _ sender | .broadcastIn _ _ sender => sender
  | .join _ | .whisper .. | .history .. | .users _ | .status | .shutDown => none

def aside : Request → Source
  | .join _ => .welcome
  | _ => .aside

end Request

namespace Session

def space (s : Session) : Nat :=
  if s.stopped = false ∧ s.outbox.intake = .open then s.outbox.capacity - s.outbox.items.length
  else 0

def adds (s : Session) : Act → List Outgoing
  | .offer text => if s.Accepts then [.text text] else []
  | .closeAfterFlush => if (s.outbox.push .close).toBool then [.close] else []
  | .take | .stop | .shut | .abandon => []

theorem accepts_iff {s : Session} : s.Accepts ↔ 0 < s.space := by
  unfold Accepts space
  split
  · next h => exact ⟨fun ha => Nat.sub_pos_of_lt ha.2.2, fun hs => ⟨h.1, h.2, by omega⟩⟩
  · next h => exact ⟨fun ha => absurd ⟨ha.1, ha.2.1⟩ h, fun hs => absurd hs (Nat.lt_irrefl 0)⟩

theorem space_withText (s : Session) (text : String) : (s.withText text).space = s.space - 1 := by
  unfold space withText
  dsimp only
  split
  · rw [List.length_append, List.length_singleton]
    omega
  · rfl

theorem kept_eq_take (s : Session) (ms : List Message) : s.kept ms = ms.take s.space := by
  induction ms generalizing s with
  | nil => exact List.take_nil.symm
  | cons m ms ih =>
    rw [kept, ih, ih]
    by_cases ha : s.Accepts
    · obtain ⟨n, hn⟩ := Nat.exists_eq_add_of_le' (accepts_iff.1 ha)
      rw [if_pos ha, space_withText, hn, List.take_succ_cons, Nat.add_sub_cancel]
    · have hzero : s.space = 0 := Nat.eq_zero_of_not_pos (mt accepts_iff.2 ha)
      rw [if_neg ha, hzero, List.take_zero, List.take_zero]

end Session

namespace Hub

section Calls

variable (h : Hub)

def greeting (id : SessionId) : List Notice :=
  if h.stopped then []
  else (h.pool.get? id).elim [] fun s => (Message.welcome s.remoteId).map (·.toOne id)

def arrival (id : SessionId) : List Notice :=
  if h.stopped then []
  else (h.pool.get? id).elim [] fun s =>
    [⟨.arrived s.remoteId, fun i => h.admitted.contains i || i == id⟩]

def asides : Request → List Notice
  | .join id => h.greeting id
  | .whisper id target body => h.notices (.whisper id target body)
  | _ => []

def calls : Request → List Notice
  | .join id => h.arrival id
  | .whisper .. => []
  | request => h.notices request

def fanOuts : Event → List FanOut
  | .request request => (h.calls request).map (⟨·, request.sender?⟩)
  | _ => []

/-- What a request would put onto the queue of the session `o`, were there room for all of it, if
`k` fan-outs were made before. -/
def parcels (k : Nat) (o : SessionId) (request : Request) : List Parcel :=
  (Notice.news (h.asides request) o).map (fun m => ⟨request.aside, .text m.text⟩) ++
    Notice.numbered (h.calls request) k o

def puts (k : Nat) (o : SessionId) : Event → List Parcel
  | .request request => (h.pool.get? o).elim [] fun s => (h.parcels k o request).take s.space
  | .act id a =>
    if id = o then ((h.pool.get? o).elim [] (·.adds a)).map (⟨.aside, ·⟩) else []
  | _ => []

def queue (o : SessionId) : List Outgoing := (h.pool.get? o).elim [] (·.outbox.items)

end Calls

variable {h : Hub} {request : Request} {e : Event} {n : Notice} {k : Nat} {o : SessionId}
  {p : Parcel}

theorem notices_eq (h : Hub) (request : Request) :
    h.notices request = h.asides request ++ h.calls request := by
  cases request with
  | join id =>
    rw [asides, calls, greeting, arrival, notices]
    split
    · rfl
    · cases h.pool.get? id <;> rfl
  | whisper => exact (List.append_nil _).symm
  | _ => rfl

inductive Call (h : Hub) (request : Request) : Notice → Prop
  | everybody (m : Message) : Call h request (h.toAll m request.sender?)
  | inRoom {room : Room} (m : Message) (members : ∀ i ∈ room.members, i ∈ h.admitted) :
      Call h request (h.toRoom room m request.sender?)
  | arrival {id : SessionId} (s : Session) (joins : request = .join id) :
      Call h request ⟨.arrived s.remoteId, fun i => h.admitted.contains i || i == id⟩

theorem call_of_mem_farewell (hh : h.ledger.Housed) {id : SessionId} {name : String}
    (hs : request.sender? = some id) (hn : n ∈ h.farewell id name) : Call h request n := by
  unfold farewell at hn
  cases hr : h.rooms.get? name with
  | none =>
    rw [hr] at hn
    cases hn
  | some room =>
    rw [hr] at hn
    obtain ⟨-, hn⟩ := List.mem_ite_nil_right.1 hn
    rw [List.mem_singleton.1 hn, ← hs]
    exact .inRoom _ fun i hi => (hh.listed hr hi).1

theorem call_of_mem_welcome (hg : h.ledger.Grounded) (hh : h.ledger.Housed) {id : SessionId}
    {name : String} (hs : request.sender? = some id) (hn : n ∈ h.welcome id name) :
    Call h request n := by
  unfold welcome at hn
  obtain ⟨-, hn⟩ := List.mem_ite_nil_right.1 hn
  rw [List.mem_singleton.1 hn, ← hs]
  refine .inRoom _ fun i hi => ?_
  obtain ⟨room, hr, hmem⟩ := hh.exists_of_mem_roomAt hg hi
  exact (hh.listed hr hmem).1

theorem call_of_mem_chatter (hh : h.ledger.Housed) {id : SessionId} {body : String}
    (hs : request.sender? = some id) (hn : n ∈ h.chatter id body) : Call h request n := by
  unfold chatter at hn
  split at hn
  · rw [List.mem_singleton.1 hn, ← hs]
    exact .everybody _
  · obtain ⟨room, hr, hn⟩ := Option.map_eq_some_iff.1 (Option.mem_toList.1 hn)
    rw [← hn, ← hs]
    exact .inRoom _ fun i hi => (hh.listed hr hi).1

theorem call_of_mem (hg : h.ledger.Grounded) (hh : h.ledger.Housed) (hn : n ∈ h.calls request) :
    Call h request n := by
  cases request with
  | join id =>
    rw [calls, arrival] at hn
    obtain ⟨-, hn⟩ := List.mem_ite_nil_left.1 hn
    cases hs : h.pool.get? id with
    | none =>
      rw [hs] at hn
      cases hn
    | some s =>
      rw [hs] at hn
      rw [List.mem_singleton.1 hn]
      exact .arrival s rfl
  | leave id =>
    obtain ⟨-, hn⟩ := List.mem_ite_nil_right.1 hn
    rcases List.mem_append.1 hn with hn | hn
    · cases hroom : (h.ledger.profile id).room with
      | none =>
        rw [hroom] at hn
        cases hn
      | some name =>
        rw [hroom] at hn
        exact call_of_mem_farewell hh rfl hn
    · rw [List.mem_singleton.1 hn]
      exact .everybody _
  | register id nickname =>
    obtain ⟨-, hn⟩ := List.mem_ite_nil_right.1 hn
    rw [List.mem_singleton.1 hn]
    exact .everybody _
  | joinRoom id name => exact call_of_mem_welcome hg hh rfl (List.mem_ite_nil_right.1 hn).2
  | leaveRoom id name => exact call_of_mem_farewell hh rfl (List.mem_ite_nil_right.1 hn).2
  | broadcast m sender =>
    rw [List.mem_singleton.1 (List.mem_ite_nil_left.1 hn).2]
    exact .everybody m
  | broadcastIn name m sender =>
    obtain ⟨-, hn⟩ := List.mem_ite_nil_left.1 hn
    obtain ⟨room, hr, hn⟩ := Option.map_eq_some_iff.1 (Option.mem_toList.1 hn)
    rw [← hn]
    exact .inRoom m fun i hi => (hh.listed hr hi).1
  | chat id body => exact call_of_mem_chatter hh rfl (List.mem_ite_nil_right.1 hn).2
  | whisper | history | users | status | shutDown => cases hn

theorem Call.sender_ne (hc : Call h request n) (hn : n.audience o) : request.sender? ≠ some o := by
  intro hs
  cases hc with
  | everybody m | inRoom m members =>
    rw [hs] at hn
    simp [toAll, toRoom] at hn
  | arrival s joins =>
    rw [joins] at hs
    cases hs

theorem Call.admitted (hc : Call h request n) (hn : n.audience o) :
    o ∈ h.admitted ∨ request = .join o := by
  cases hc with
  | everybody m =>
    rw [toAll, Bool.and_eq_true, List.contains_iff_mem] at hn
    exact .inl hn.1
  | inRoom m members =>
    rw [toRoom, Bool.and_eq_true, Bool.and_eq_true, List.contains_iff_mem] at hn
    exact .inl (members o hn.1.1)
  | arrival s joins =>
    rw [Bool.or_eq_true, List.contains_iff_mem, beq_iff_eq] at hn
    refine hn.imp_right fun ho => ?_
    rw [joins, ho]

/-! ### Parcels -/

theorem items_numbered (ns : List Notice) (k : Nat) (o : SessionId) :
    (Notice.numbered ns k o).map Parcel.item =
      (Notice.news ns o).map fun m => .text m.text := by
  induction ns generalizing k with
  | nil => rfl
  | cons n ns ih =>
    have hrest := ih (k + 1)
    unfold Notice.numbered Notice.news at hrest ⊢
    cases ha : n.audience o with
    | true => simp only [List.zipIdx_cons, List.filterMap_cons, ha, if_true, List.map_cons, hrest]
    | false =>
      simp only [List.zipIdx_cons, List.filterMap_cons, ha, Bool.false_eq_true, if_false, hrest]

theorem items_parcels (h : Hub) (k : Nat) (o : SessionId) (request : Request) :
    (h.parcels k o request).map Parcel.item = (h.news request o).map fun m => .text m.text := by
  rw [parcels, List.map_append, List.map_map, items_numbered, news, notices_eq, Notice.news_append,
    List.map_append]
  rfl

theorem mem_numbered {ns : List Notice} (hp : p ∈ Notice.numbered ns k o) :
    ∃ i n, ns[i]? = some n ∧ n.audience o ∧ p = ⟨.fanOut (k + i), .text n.message.text⟩ := by
  obtain ⟨⟨n, j⟩, hn, hp⟩ := List.mem_filterMap.1 hp
  obtain ⟨hk, hget⟩ := List.mk_mem_zipIdx_iff_le_and_getElem?_sub.1 hn
  obtain ⟨hheard, hp⟩ := Option.ite_none_right_eq_some.1 hp
  refine ⟨j - k, n, hget, hheard, ?_⟩
  rw [Nat.add_sub_cancel' hk, ← Option.some.inj hp]

theorem pairwise_numbered (ns : List Notice) (k : Nat) (o : SessionId) :
    (Notice.numbered ns k o).Pairwise Parcel.Precedes := by
  have hnumbers : (ns.zipIdx k).Pairwise fun a b => a.2 < b.2 := by
    rw [← List.pairwise_map, List.zipIdx_map_snd]
    exact List.pairwise_lt_range'
  refine List.Pairwise.filterMap _ (fun a b hab p hp q hq => ?_) hnumbers
  obtain ⟨-, hp⟩ := Option.ite_none_right_eq_some.1 hp
  obtain ⟨-, hq⟩ := Option.ite_none_right_eq_some.1 hq
  rw [← Option.some.inj hp, ← Option.some.inj hq]
  exact hab

theorem pairwise_parcels (h : Hub) (k : Nat) (o : SessionId) (request : Request) :
    (h.parcels k o request).Pairwise Parcel.Precedes := by
  have haside : ∀ item q, Parcel.Precedes ⟨request.aside, item⟩ q := by
    intro item q
    cases request <;> exact trivial
  refine List.pairwise_append.2 ⟨?_, pairwise_numbered _ k o, fun p hp q _ => ?_⟩
  · rw [List.pairwise_map]
    exact List.pairwise_of_forall fun m _ => haside (.text m.text) _
  · obtain ⟨m, -, rfl⟩ := List.mem_map.1 hp
    exact haside (.text m.text) q

/-! ### What an event puts onto a queue -/

theorem queue_request (h : Hub) (k : Nat) (o : SessionId) (request : Request) :
    (h.step (.request request)).queue o =
      h.queue o ++ (h.puts k o (.request request)).map Parcel.item := by
  unfold queue puts
  rw [step, get?_handle]
  cases hs : h.pool.get? o with
  | none => rfl
  | some s =>
    have hitems : (s.tellAll (h.news request o)).outbox.items =
        s.outbox.items ++ ((h.parcels k o request).take s.space).map Parcel.item := by
      rw [Session.items_tellAll, Session.kept_eq_take, List.map_take, List.map_take, items_parcels]
    exact hitems

theorem items_act (s : Session) {a : Session.Act} (taking : a ≠ .take) (losing : a ≠ .abandon) :
    (s.act a).outbox.items = s.outbox.items ++ s.adds a := by
  cases a with
  | offer text =>
    rw [Session.act, Session.offer_eq_ite, Session.adds]
    split
    · rfl
    · exact (List.append_nil _).symm
  | closeAfterFlush =>
    rw [Session.act, Session.adds]
    obtain ⟨box, hpush, hclose⟩ | ⟨hpush, hclose⟩ := s.closeAfterFlush_cases
    · obtain ⟨-, -, rfl⟩ := Outbox.push_eq_ok_iff.1 hpush
      rw [hclose, hpush]
      rfl
    · rw [hclose, hpush]
      exact (List.append_nil _).symm
  | stop => exact (List.append_nil _).symm
  | shut =>
    rw [Session.act, Outbox.shut, Session.adds, List.append_nil]
    split <;> rfl
  | take => exact absurd rfl taking
  | abandon => exact absurd rfl losing

theorem queue_step (h : Hub) (k : Nat) {e : Event} (taking : e ≠ .act o .take)
    (losing : e ≠ .act o .abandon) :
    (h.step e).queue o = h.queue o ++ (h.puts k o e).map Parcel.item := by
  have hsame : ∀ h' : Hub, h'.pool = h.pool → h'.queue o = h.queue o ++ [] := by
    intro h' hp
    rw [queue, hp, List.append_nil, queue]
  cases e with
  | create remoteId transport capacity =>
    rw [queue, step, create, Pool.get?_add]
    by_cases ho : o = h.pool.size
    · have hnone : h.pool.get? o = none := List.getElem?_eq_none (Nat.le_of_eq ho.symm)
      rw [if_pos ho, queue, hnone]
      rfl
    · rw [if_neg ho]
      exact (List.append_nil _).symm
  | act id a =>
    rw [queue, step, update, Pool.get?_update, puts, queue]
    by_cases hid : id = o
    · subst hid
      have hact := fun s => items_act s (fun ha => taking (ha ▸ rfl)) (fun ha => losing (ha ▸ rfl))
      rw [if_pos rfl, if_pos rfl]
      cases h.pool.get? id with
      | none => rfl
      | some s =>
        rw [Option.map_some, Option.elim_some, Option.elim_some, hact s, Option.elim_some,
          List.map_map]
        exact congrArg _ (List.map_id _).symm
    · rw [if_neg (Ne.symm hid), if_neg hid]
      exact (List.append_nil _).symm
  | expire id =>
    rw [queue, step, update, Pool.get?_update, queue]
    cases h.pool.get? o <;> split <;> exact (List.append_nil _).symm
  | tick stamp => exact hsame _ rfl
  | request request => exact h.queue_request k o request

theorem queue_take (h : Hub) (o : SessionId) :
    (h.step (.act o .take)).queue o = (h.queue o).tail := by
  rw [queue, step, update, Pool.get?_update, if_pos rfl, queue]
  cases h.pool.get? o with
  | none => rfl
  | some s =>
    rw [Option.map_some, Option.elim_some, Option.elim_some, Session.act, Outbox.take?]
    cases hi : s.outbox.items with
    | nil => exact hi
    | cons item items => rfl

theorem queue_abandon (h : Hub) (o : SessionId) :
    (h.step (.act o .abandon)).queue o = [] := by
  rw [queue, step, update, Pool.get?_update, if_pos rfl]
  cases h.pool.get? o <;> rfl

theorem pairwise_puts (h : Hub) (k : Nat) (o : SessionId) (e : Event) :
    (h.puts k o e).Pairwise Parcel.Precedes := by
  cases e with
  | request request =>
    rw [puts]
    cases h.pool.get? o with
    | none => exact List.Pairwise.nil
    | some s => exact (h.pairwise_parcels k o request).sublist (List.take_sublist _ _)
  | act id a =>
    rw [puts]
    split
    · rw [List.pairwise_map]
      exact List.pairwise_of_forall fun _ _ => trivial
    · exact List.Pairwise.nil
  | create | expire | tick => exact List.Pairwise.nil

theorem eq_of_mem_greeting {id : SessionId} {m : Message}
    (hm : m ∈ Notice.news (h.greeting id) o) : o = id := by
  rw [greeting] at hm
  split at hm
  · cases hm
  · cases hs : h.pool.get? id with
    | none =>
      rw [hs] at hm
      cases hm
    | some s =>
      rw [hs, Option.elim_some, Notice.news_toOne] at hm
      exact (List.mem_ite_nil_right.1 hm).1

inductive Put (h : Hub) (k : Nat) (o : SessionId) (e : Event) (p : Parcel) : Prop
  | alone (number : p.number? = none) (joins : p.source = .welcome → e.joined? = some o)
  | shared {i : Nat} {f : FanOut} (source : p.source = .fanOut (k + i))
      (made : (h.fanOuts e)[i]? = some f) (text : p.item = .text f.notice.message.text)
      (meant : f.notice.audience o) (sender : f.sender ≠ some o)
      (there : o ∈ h.admitted ∨ e.joined? = some o)

theorem put_of_mem (hg : h.ledger.Grounded) (hh : h.ledger.Housed) (hp : p ∈ h.puts k o e) :
    Put h k o e p := by
  cases e with
  | request request =>
    have hparcel : p ∈ h.parcels k o request := by
      rw [puts] at hp
      cases hs : h.pool.get? o with
      | none =>
        rw [hs] at hp
        cases hp
      | some s =>
        rw [hs] at hp
        exact List.mem_of_mem_take hp
    rcases List.mem_append.1 hparcel with haside | hcall
    · obtain ⟨m, hm, rfl⟩ := List.mem_map.1 haside
      cases request with
      | join id =>
        refine .alone rfl fun _ => ?_
        rw [eq_of_mem_greeting hm]
        rfl
      | _ => exact .alone rfl nofun
    · obtain ⟨i, n, hget, hheard, rfl⟩ := mem_numbered hcall
      have hc : Call h request n := call_of_mem hg hh (List.mem_of_getElem? hget)
      have hmade : (h.fanOuts (.request request))[i]? = some ⟨n, request.sender?⟩ := by
        rw [fanOuts, List.getElem?_map, hget]
        rfl
      refine .shared rfl hmade rfl hheard (hc.sender_ne hheard) ?_
      refine (hc.admitted hheard).imp_right fun hjoin => ?_
      rw [hjoin]
      rfl
  | act id a =>
    rw [puts] at hp
    obtain ⟨-, hp⟩ := List.mem_ite_nil_right.1 hp
    obtain ⟨item, -, rfl⟩ := List.mem_map.1 hp
    exact .alone rfl nofun
  | create | expire | tick => cases hp

end Hub
end ChatRelay

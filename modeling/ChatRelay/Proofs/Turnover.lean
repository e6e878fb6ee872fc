import ChatRelay.Proofs.Departure
import ChatRelay.Proofs.Presence

/-! Who enters a room and who goes out of it, as those are told who stay. They hear of it when the
list of members changes, once and by name, and at no other time: not of somebody who is turned away
or there already, nor of somebody who leaves a room that never listed it. -/

namespace ChatRelay

def Message.seating : Message → Bool
  | .memberJoined _ | .memberLeft .. => true
  | _ => false

theorem Message.seating_of_mem_welcome {m : Message} {remoteId : String}
    (hm : m ∈ welcome remoteId) : m.seating = false := by
  simp only [welcome, List.mem_cons, List.not_mem_nil, or_false] at hm
  rcases hm with rfl | rfl | rfl | rfl | rfl <;> rfl

def Request.issuer? : Request → Option SessionId
  | .join id | .leave id | .register id _ | .joinRoom id _ | .leaveRoom id _ | .chat id _
  | .whisper id _ _ | .history id _ | .users id => some id
  | .broadcast .. | .broadcastIn .. | .status | .shutDown => none

theorem Notice.exists_of_mem_news {ns : List Notice} {i : SessionId} {m : Message}
    (hm : m ∈ news ns i) : ∃ n ∈ ns, n.message = m := by
  obtain ⟨n, hn, hheard⟩ := List.mem_filterMap.1 hm
  split at hheard
  · exact ⟨n, hn, Option.some.inj hheard⟩
  · cases hheard

namespace Session

variable {s : Session} {m : Message} {ms : List Message}

theorem filter_kept_cons {p : Message → Bool} (ha : s.Accepts) (hm : p m)
    (hrest : ∀ m ∈ ms, p m = false) : (s.kept (m :: ms)).filter p = [m] := by
  have hnone : ((s.withText m.text).kept ms).filter p = [] :=
    List.filter_eq_nil_iff.2 fun x hx => by
      rw [hrest x (kept_subset _ ms hx)]
      exact Bool.false_ne_true
  rw [kept, if_pos ha, List.filter_cons_of_pos hm, hnone]

theorem filter_kept_eq_nil {p : Message → Bool} (hrest : ∀ m ∈ ms, p m = false) :
    (s.kept ms).filter p = [] :=
  List.filter_eq_nil_iff.2 fun x hx => by
    rw [hrest x (kept_subset s ms hx)]
    exact Bool.false_ne_true

end Session

namespace Hub

variable {limits : Limits} {h : Hub} {request : Request} {id i j : SessionId} {name n : String}
  {room : Room}

/-! ### Rooms with somebody in them -/

theorem lists_of_room (hr : h.rooms.get? name = some room) : h.Lists name j ↔ j ∈ room.members := by
  unfold Lists
  rw [hr]
  exact ⟨fun ⟨other, hother, hj⟩ => Option.some.inj hother ▸ hj, fun hj => ⟨room, rfl, hj⟩⟩

theorem rooms_handle (h : Hub) (request : Request) :
    (h.handle request).2.rooms = (h.ledger.handle request).rooms :=
  congrArg Ledger.rooms (h.ledger_handle request)

theorem lists_congr {k : Hub} (hr : k.rooms.get? name = h.rooms.get? name) :
    k.Lists name j ↔ h.Lists name j := by
  unfold Lists
  rw [hr]

theorem lists_of_keep {k : Hub} (hr : h.rooms.get? name = some room)
    (hk : k.rooms.get? name = some (room.keep (· ≠ id))) :
    k.Lists name j ↔ h.Lists name j ∧ j ≠ id := by
  rw [lists_of_room hr, lists_of_room hk, Room.mem_keep, decide_eq_true_iff]

theorem lists_of_keep_out {k : Hub} (hr : h.rooms.get? name = some room)
    (hk : k.rooms.get? name = some (room.keep (· ≠ id))) (out : ¬ h.Lists name id) :
    k.Lists name j ↔ h.Lists name j := by
  rw [lists_of_keep hr hk]
  exact and_iff_left_of_imp fun hj heq => out (heq ▸ hj)

theorem same_room (hh : h.ledger.Housed) (hi : h.Lists name i) (hi' : h.Lists n i) : n = name := by
  obtain ⟨there, hthere, hmem⟩ := hi
  obtain ⟨other, hother, hmem'⟩ := hi'
  have hp := (hh.listed hthere hmem).2
  rw [(hh.listed hother hmem').2] at hp
  exact Option.some.inj hp

theorem news_toRoom_of_elsewhere (hh : h.ledger.Housed) (hi : h.Lists name i) (hn : n ≠ name)
    (hout : ∀ j ∈ room.members, h.Lists n j) (m : Message) (sender : Option SessionId) :
    Notice.news [h.toRoom room m sender] i = [] := by
  have hnot : i ∉ room.members := fun hmem => hn (same_room hh hi (hout i hmem))
  rw [Notice.news_singleton]
  refine if_neg fun ha => ?_
  unfold toRoom at ha
  rw [Bool.and_eq_true, Bool.and_eq_true, List.contains_iff_mem] at ha
  exact hnot ha.1.1

/-! ### What one request does to a room -/

/-- All that a request can do to the members of a room in which somebody stays, and what is said of
it to that one. -/
inductive Turnover (h : Hub) (request : Request) (name : String) (i : SessionId) : Prop
  | entered {id : SessionId} {s : Session} (issued : request.issuer? = some id)
      (who : h.session id = .ok s) (out : ¬ h.Lists name id)
      (members : ∀ j, (h.handle request).2.Lists name j ↔ h.Lists name j ∨ j = id)
      (news : h.news request i = [.memberJoined s.displayName])
  | left {id : SessionId} {s : Session} {rest : List Message}
      (issued : request.issuer? = some id) (who : h.session id = .ok s)
      (listed : h.Lists name id)
      (members : ∀ j, (h.handle request).2.Lists name j ↔ h.Lists name j ∧ j ≠ id)
      (news : h.news request i = .memberLeft s.displayName name :: rest)
      (silent : ∀ m ∈ rest, m.seating = false)
  | still (members : ∀ j, (h.handle request).2.Lists name j ↔ h.Lists name j)
      (silent : ∀ m ∈ h.news request i, m.seating = false)

theorem turnover_of_silent (hrooms : (h.ledger.handle request).rooms = h.rooms)
    (hsaid : ∀ n ∈ h.notices request, n.message.seating = false) :
    h.Turnover request name i := by
  refine .still (fun j => lists_congr ?_) fun m hm => ?_
  · rw [rooms_handle, hrooms]
  · obtain ⟨n, hn, rfl⟩ := Notice.exists_of_mem_news hm
    exact hsaid n hn

theorem turnover_of_nothing (hrooms : (h.ledger.handle request).rooms = h.rooms)
    (hsaid : h.notices request = []) : h.Turnover request name i :=
  turnover_of_silent hrooms fun n hn => by
    rw [hsaid] at hn
    cases hn

theorem turnover_leave (hg : h.ledger.Grounded) (hh : h.ledger.Housed) (going : h.stopped = false)
    (hi : h.Lists name i) (hrun : h.ledger.running i) (hne : i ≠ id) :
    h.Turnover (.leave id) name i := by
  by_cases hk : h.ledger.knows id
  · obtain ⟨s, hs⟩ := exists_session_iff.2 hk
    obtain ⟨room, hroom, hmem⟩ := hi
    have ha := (hh.listed hroom hmem).1
    obtain ⟨t, ht⟩ := exists_session_of_mem hg ha
    have hlive : h.ledger.live i := (hg.live_iff ha).2 hrun
    have hrest : (room.keep (· ≠ id)).members.any h.ledger.live :=
      List.any_eq_true.2 ⟨i, Room.mem_keep.2 ⟨hmem, decide_eq_true hne⟩, hlive⟩
    have hafter : (h.handle (.leave id)).2.rooms.get? name = some (room.keep (· ≠ id)) := by
      rw [rooms_handle, Ledger.handle, Ledger.leave, if_pos hk, hh.get?_depart hg]
      show (h.rooms.get? name).bind _ = _
      rw [hroom, Option.bind_some, if_neg fun hc => hc.2 hrest]
    rcases news_leave hh going hs ht hne hlive with ⟨n, hid, hin, hnews⟩ | ⟨hnot, hnews⟩
    · have hn : n = name := same_room hh ⟨room, hroom, hmem⟩ hin
      subst hn
      exact .left rfl hs hid (fun j => lists_of_keep hroom hafter) hnews fun m hm => by
        rw [List.mem_singleton.1 hm]
        rfl
    · have hout : ¬ h.Lists name id := fun hid => hnot name ⟨hid, room, hroom, hmem⟩
      refine .still (fun j => lists_of_keep_out hroom hafter hout) fun m hm => ?_
      rw [hnews] at hm
      rw [List.mem_singleton.1 hm]
      rfl
  · have hn : ¬ h.ledger.hears id := fun hears => hk (Ledger.hears_iff.1 hears).2
    refine turnover_of_nothing ?_ ?_
    · rw [Ledger.handle, Ledger.leave, if_neg hk]
      rfl
    · rw [notices, if_neg hn]

theorem turnover_leaveRoom (hg : h.ledger.Grounded) (hh : h.ledger.Housed)
    (hi : h.Lists name i) (hrun : h.ledger.running i) (hne : i ≠ id) :
    h.Turnover (.leaveRoom id n) name i := by
  by_cases hc : h.ledger.hears id ∧ (h.ledger.profile id).room = some n
  · obtain ⟨s, hs⟩ := exists_session_iff.2 (Ledger.hears_iff.1 hc.1).2
    obtain ⟨room, hroom, hmem⟩ := hi
    have hlive : h.ledger.live i := (hg.live_iff (hh.listed hroom hmem).1).2 hrun
    have hname : h.nameOf id = s.displayName := nameOf_of_get? (session_eq_ok_iff.1 hs).2
    have hrooms : (h.handle (.leaveRoom id n)).2.rooms = h.ledger.roomsWithout id n := by
      rw [rooms_handle, Ledger.handle, Ledger.leaveRoom, if_pos hc]
      rfl
    have hnews : h.news (.leaveRoom id n) i = Notice.news (h.farewell id n) i := by
      rw [news, notices, if_pos hc]
    by_cases hn : n = name
    · subst hn
      have hafter : (h.handle (.leaveRoom id n)).2.rooms.get? n = some (room.keep (· ≠ id)) := by
        rw [hrooms, hh.stays hg hroom hmem hne hrun]
      rcases news_farewell hne hlive _ n hname with ⟨hid, -, hsaid⟩ | ⟨hnot, hsaid⟩
      · exact .left rfl hs hid (fun j => lists_of_keep hroom hafter) (hnews.trans hsaid)
          fun _ hm => absurd hm List.not_mem_nil
      -- who stopped may believe to be in a room that was opened again
      · have hout : ¬ h.Lists n id := fun hid => hnot ⟨hid, room, hroom, hmem⟩
        refine .still (fun j => lists_of_keep_out hroom hafter hout) fun m hm => ?_
        rw [hnews, hsaid] at hm
        cases hm
    · refine .still (fun j => lists_congr ?_) fun m hm => ?_
      · rw [hrooms, Ledger.get?_roomsWithout_of_ne _ _ (Ne.symm hn)]
        rfl
      · rcases news_farewell hne hlive _ n hname with ⟨-, hin, -⟩ | ⟨-, hsaid⟩
        · exact absurd (same_room hh ⟨room, hroom, hmem⟩ hin) hn
        · rw [hnews, hsaid] at hm
          cases hm
  · refine turnover_of_nothing ?_ ?_
    · rw [Ledger.handle, Ledger.leaveRoom, if_neg hc]
      rfl
    · rw [notices, if_neg hc]

theorem turnover_full (hg : h.ledger.Grounded) (hh : h.ledger.Housed) (hi : h.Lists name i)
    (hrun : h.ledger.running i) (hs : h.ledger.seeks id n)
    (hfull : (h.ledger.roomAt n).limit ≤ (h.ledger.roomAt n).members.length) :
    h.Turnover (.joinRoom id n) name i := by
  have hnew := hh.not_mem_roomAt hg hs.2.2 n
  obtain ⟨room, hroom, hmem⟩ := hi
  have hrooms : (h.handle (.joinRoom id n)).2.rooms = h.ledger.settled n (h.ledger.roomAt n) := by
    rw [rooms_handle, Ledger.handle, Ledger.joinRoom]
    rw [if_pos hs, if_neg (mt Room.contains_iff.1 hnew), if_pos hfull]
  have hsaid : h.news (.joinRoom id n) i = [] := by
    rw [news, notices, if_pos hs, welcome]
    rw [if_neg fun hc => hc.elim hnew (Nat.not_lt.2 hfull)]
    rfl
  refine .still (fun j => lists_congr ?_) fun m hm => ?_
  · rw [hrooms, hh.get?_refused hg n hroom hmem hrun, hroom]
  · rw [hsaid] at hm
    cases hm

theorem turnover_seat (hg : h.ledger.Grounded) (hh : h.ledger.Housed) (hi : h.Lists name i)
    (hrun : h.ledger.running i) (hne : i ≠ id) (hs : h.ledger.seeks id n)
    (hfree : (h.ledger.roomAt n).members.length < (h.ledger.roomAt n).limit) :
    h.Turnover (.joinRoom id n) name i := by
  obtain ⟨s, hq⟩ := exists_session_iff.2 (Ledger.hears_iff.1 hs.1).2
  have hname : h.nameOf id = s.displayName := nameOf_of_get? (session_eq_ok_iff.1 hq).2
  have hnew := hh.not_mem_roomAt hg hs.2.2 n
  obtain ⟨room, hroom, hmem⟩ := hi
  have hlive : h.ledger.live i := (hg.live_iff (hh.listed hroom hmem).1).2 hrun
  have hrooms : (h.handle (.joinRoom id n)).2.rooms = h.rooms.insert n
      { h.ledger.roomAt n with members := (h.ledger.roomAt n).members ++ [id] } := by
    rw [rooms_handle, Ledger.handle, Ledger.joinRoom]
    dsimp only
    rw [if_pos hs, if_neg (mt Room.contains_iff.1 hnew), if_neg (Nat.not_le.2 hfree)]
    rfl
  have hnews : h.news (.joinRoom id n) i = Notice.news
      [h.toRoom (h.ledger.roomAt n) (.memberJoined s.displayName) (some id)] i := by
    rw [news, notices, if_pos hs, welcome, if_pos (.inr hfree), hname]
  by_cases hn : n = name
  · subst hn
    have hat := hh.roomAt_eq_of_get? hg hroom
    have hafter : (h.handle (.joinRoom id n)).2.rooms.get? n =
        some { room with members := room.members ++ [id] } := by
      rw [hrooms, Registry.get?_insert, if_pos rfl, hat]
    refine .entered rfl hq (fun hid => hnew ?_) (fun j => ?_) ?_
    · rw [hat]
      exact (lists_of_room hroom).1 hid
    · rw [lists_of_room hroom, lists_of_room hafter, List.mem_append, List.mem_singleton]
    · rw [hnews, Notice.news_singleton, audience_toRoom hne hlive, hat,
        if_pos (decide_eq_true hmem)]
      rfl
  · refine .still (fun j => lists_congr ?_) fun m hm => ?_
    · rw [hrooms, Registry.get?_insert, if_neg (Ne.symm hn)]
    · have hout : ∀ j ∈ (h.ledger.roomAt n).members, h.Lists n j := fun j hj =>
        (hh.exists_of_mem_roomAt hg hj).imp fun _ hother => hother
      rw [hnews, news_toRoom_of_elsewhere hh ⟨room, hroom, hmem⟩ hn hout] at hm
      cases hm

theorem turnover_joinRoom (hg : h.ledger.Grounded) (hh : h.ledger.Housed)
    (hi : h.Lists name i) (hrun : h.ledger.running i) (hne : i ≠ id) :
    h.Turnover (.joinRoom id n) name i := by
  by_cases hs : h.ledger.seeks id n
  · rcases Nat.lt_or_ge (h.ledger.roomAt n).members.length (h.ledger.roomAt n).limit with
      hfree | hfull
    · exact turnover_seat hg hh hi hrun hne hs hfree
    · exact turnover_full hg hh hi hrun hs hfull
  · refine turnover_of_nothing ?_ ?_
    · rw [Ledger.handle, Ledger.joinRoom]
      rw [if_neg hs]
      rfl
    · rw [notices, if_neg hs]

theorem turnover_handle (hg : h.ledger.Grounded) (hh : h.ledger.Housed) (going : h.stopped = false)
    (genuine : request.raw = false) (hi : h.Lists name i) (hrun : h.ledger.running i)
    (other : request.issuer? ≠ some i) : h.Turnover request name i := by
  have hne : ∀ {id}, request.issuer? = some id → i ≠ id := by
    rintro id hid rfl
    exact other hid
  cases request with
  | leave id => exact turnover_leave hg hh going hi hrun (hne rfl)
  | leaveRoom id n => exact turnover_leaveRoom hg hh hi hrun (hne rfl)
  | joinRoom id n => exact turnover_joinRoom hg hh hi hrun (hne rfl)
  | broadcast => cases genuine
  | broadcastIn => cases genuine
  | join id =>
    refine turnover_of_silent ?_ fun n hn => ?_
    · rw [Ledger.handle, Ledger.join]
      split <;> rfl
    · rw [notices, going, if_neg Bool.false_ne_true] at hn
      split at hn
      · cases hn
      · rcases List.mem_append.1 hn with hn | hn
        · obtain ⟨m, hm, rfl⟩ := List.mem_map.1 hn
          exact Message.seating_of_mem_welcome hm
        · rw [List.mem_singleton.1 hn]
          rfl
  | register id nickname =>
    refine turnover_of_silent ?_ fun n hn => ?_
    · rw [Ledger.handle, Ledger.register]
      split <;> rfl
    · rw [notices, List.mem_ite_nil_right] at hn
      rw [List.mem_singleton.1 hn.2]
      rfl
  | chat id body =>
    refine turnover_of_silent rfl fun n hn => ?_
    rw [notices, chatter, List.mem_ite_nil_right] at hn
    obtain ⟨-, hn⟩ := hn
    split at hn
    · rw [List.mem_singleton.1 hn]
      rfl
    · obtain ⟨room, -, rfl⟩ := Option.map_eq_some_iff.1 (Option.mem_toList.1 hn)
      rfl
  | whisper id target body =>
    refine turnover_of_silent rfl fun n hn => ?_
    rw [notices, List.mem_ite_nil_right] at hn
    obtain ⟨receiver, -, rfl⟩ := Option.map_eq_some_iff.1 (Option.mem_toList.1 hn.2)
    rfl
  | history | users | status => exact turnover_of_nothing rfl rfl
  | shutDown =>
    refine turnover_of_nothing ?_ rfl
    rw [Ledger.handle, Ledger.shutDown]
    split <;> rfl

/-- What somebody finds on its queue who stays in a room while a request is handled. -/
structure Mirrored (h : Hub) (request : Request) (name : String) (i : SessionId) (t : Session) :
    Prop where
  queue : ∃ t', (h.handle request).2.pool.get? i = some t' ∧
    t'.outbox.items = t.outbox.items ++ (h.queued request i).map fun m => .text m.text
  entered : ∀ {id}, request.issuer? = some id → ¬ h.Lists name id →
    (h.handle request).2.Lists name id → ∃ s, h.session id = .ok s ∧
      (h.queued request i).filter (·.seating) = [.memberJoined s.displayName]
  left : ∀ {id}, request.issuer? = some id → h.Lists name id →
    ¬ (h.handle request).2.Lists name id → ∃ s, h.session id = .ok s ∧
      (h.queued request i).filter (·.seating) = [.memberLeft s.displayName name]
  still : (∀ id, request.issuer? = some id →
      ((h.handle request).2.Lists name id ↔ h.Lists name id)) →
    (h.queued request i).filter (·.seating) = []
  others : ∀ {j}, request.issuer? ≠ some j →
    ((h.handle request).2.Lists name j ↔ h.Lists name j)

theorem mirrored_of_turnover (ht : h.Turnover request name i) {t : Session}
    (hget : h.pool.get? i = some t) (ha : t.Accepts) : h.Mirrored request name i t := by
  have hqueued : h.queued request i = t.kept (h.news request i) := by
    rw [queued, hget, Option.elim_some]
  have hafter := h.get?_handle request i
  rw [hget, Option.map_some] at hafter
  have hqueue : ∃ t', (h.handle request).2.pool.get? i = some t' ∧
      t'.outbox.items = t.outbox.items ++ (h.queued request i).map fun m => .text m.text :=
    ⟨_, hafter, items_handle hget hafter⟩
  cases ht with
  | @entered id s issued who out members news =>
    have hin : (h.handle request).2.Lists name id := (members id).2 (.inr rfl)
    refine ⟨hqueue, fun hid _ _ => ?_, fun hid hl => ?_, fun hsame => ?_, fun hid => ?_⟩
    · cases issued.symm.trans hid
      refine ⟨s, who, ?_⟩
      rw [hqueued, news]
      exact Session.filter_kept_cons ha rfl fun _ hm => absurd hm List.not_mem_nil
    · cases issued.symm.trans hid
      exact absurd hl out
    · exact absurd ((hsame id issued).1 hin) out
    · rw [members]
      exact or_iff_left fun heq => hid (heq ▸ issued)
  | @left id s rest issued who listed members news silent =>
    have hout : ¬ (h.handle request).2.Lists name id := fun hl => ((members id).1 hl).2 rfl
    refine ⟨hqueue, fun hid hn => ?_, fun hid _ _ => ?_, fun hsame => ?_, fun hid => ?_⟩
    · cases issued.symm.trans hid
      exact absurd listed hn
    · cases issued.symm.trans hid
      refine ⟨s, who, ?_⟩
      rw [hqueued, news]
      exact Session.filter_kept_cons ha rfl silent
    · exact absurd ((hsame id issued).2 listed) hout
    · rw [members]
      exact and_iff_left fun heq => hid (heq ▸ issued)
  | still members silent =>
    refine ⟨hqueue, fun _ hn hl => ?_, fun _ hl hn => ?_, fun _ => ?_, fun _ => members _⟩
    · exact absurd ((members _).1 hl) hn
    · exact absurd ((members _).2 hl) hn
    · rw [hqueued]
      exact Session.filter_kept_eq_nil silent

/-- Whoever runs, stays in a room and has a free slot is told of every change of its members, and
of nothing that is none. -/
theorem members_mirrored (hr : h.Reachable limits) (going : h.stopped = false)
    (genuine : request.raw = false) {t : Session} (ht : h.pool.get? i = some t)
    (hrun : t.stopped = false) (hopen : t.outbox.intake = .open)
    (hspace : t.outbox.items.length < t.outbox.capacity) (hi : h.Lists name i)
    (other : request.issuer? ≠ some i) : h.Mirrored request name i t := by
  have hrunning : h.ledger.running i := by
    rw [show h.ledger.running i = !t.stopped from Pool.view_of_get? ht, hrun]
    rfl
  exact mirrored_of_turnover (turnover_handle hr.grounded hr.housed going genuine hi hrunning other)
    ht ⟨hrun, hopen, hspace⟩

def narrows : List Event :=
  [.create "a" .line 16, .create "b" .line 6, .request (.join 0), .request (.join 1),
    .request (.joinRoom 0 "r"), .request (.joinRoom 1 "r"), .act 1 .take]

theorem members_mirrored_narrows :
    (start .standard none "").feasible narrows ∧
      ((start .standard none "").run narrows).stopped = false ∧
      (Request.leave 0).raw = false ∧ (Request.leave 0).issuer? ≠ some 1 ∧
      ((start .standard none "").run narrows).Lists "r" 1 ∧
      ((start .standard none "").run narrows).queued (.leave 0) 1 = [.memberLeft "a" "r"] ∧
      ∃ t, ((start .standard none "").run narrows).pool.get? 1 = some t ∧ t.stopped = false ∧
        t.outbox.intake = .open ∧ t.outbox.items.length < t.outbox.capacity ∧
        ((start .standard none "").run narrows).Mirrored (.leave 0) "r" 1 t := by
  have hf : (start .standard none "").feasible narrows := by decide
  have going : ((start .standard none "").run narrows).stopped = false := by decide +kernel
  have hroom : ((start .standard none "").run narrows).rooms.get? "r" =
      some ⟨"r", 100, [0, 1]⟩ := by
    decide +kernel
  have hi : ((start .standard none "").run narrows).Lists "r" 1 := ⟨_, hroom, by decide⟩
  have hone : (((start .standard none "").run narrows).pool.get? 1).any fun t =>
      decide (t.stopped = false ∧ t.outbox.intake = .open ∧
        t.outbox.items.length < t.outbox.capacity) := by decide +kernel
  obtain ⟨t, ht, hfree⟩ := (Option.any_eq_true _ _).1 hone
  obtain ⟨hrun, hopen, hspace⟩ := of_decide_eq_true hfree
  exact ⟨hf, going, rfl, by decide, hi, by decide +kernel, t, ht, hrun, hopen, hspace,
    members_mirrored (reachable_run hf) going rfl ht hrun hopen hspace hi (by decide)⟩

end Hub
end ChatRelay

import ChatRelay.Proofs.Identity
import ChatRelay.Proofs.Membership
import ChatRelay.Proofs.Notices.Handle

/-! What remains of a session that left: nothing. Its nickname and its room may be somebody else's
by then, and what is theirs stays. -/

namespace ChatRelay
namespace Ledger

variable {l : Ledger} {id i : SessionId} {name : String} {room : Room}

theorem mem_leave (hne : i ≠ id) : i ∈ (l.leave id).admitted ↔ i ∈ l.admitted := by
  unfold leave
  split
  · exact List.mem_filter.trans (and_iff_left (decide_eq_true hne))
  · rfl

theorem profile_leave (hne : i ≠ id) : (l.leave id).profile i = l.profile i := by
  unfold leave
  split
  · exact l.profile_setRoom_of_ne hne none
  · rfl

theorem Indexed.get?_leave (hi : l.Indexed) (hg : l.Grounded) (hne : i ≠ id) (nickname : String) :
    (l.leave id).nicknames.get? nickname = some i ↔ l.nicknames.get? nickname = some i := by
  unfold leave
  split
  -- the nickname that the leaver bears may lead to somebody else by now
  · show (l.nicknamesWithout id).get? nickname = some i ↔ _
    rw [hi.get?_nicknamesWithout hg]
    by_cases hid : l.nicknames.get? nickname = some id
    · rw [if_pos hid, hid]
      constructor
      · intro hn
        cases hn
      · intro hn
        exact absurd (Option.some.inj hn).symm hne
    · rw [if_neg hid]
  · rfl

theorem Housed.keep_elsewhere (hh : l.Housed) (hr : l.rooms.get? name = some room)
    (hp : (l.profile id).room ≠ some name) : id ∉ room.members ∧ room.keep (· ≠ id) = room := by
  have hout : id ∉ room.members := fun hi => hp (hh.listed hr hi).2
  refine ⟨hout, Room.keep_eq_self fun i hi => decide_eq_true ?_⟩
  rintro rfl
  exact hout hi

theorem Housed.get?_depart (hh : l.Housed) (hg : l.Grounded) (id : SessionId) (name : String) :
    (l.depart id).rooms.get? name = (l.rooms.get? name).bind fun room =>
      if id ∈ room.members ∧ ¬ (room.keep (· ≠ id)).members.any l.live then none
      else some (room.keep (· ≠ id)) := by
  have helsewhere : (l.profile id).room ≠ some name → l.rooms.get? name =
      (l.rooms.get? name).bind fun room =>
        if id ∈ room.members ∧ ¬ (room.keep (· ≠ id)).members.any l.live then none
        else some (room.keep (· ≠ id)) := by
    intro hp
    cases hr : l.rooms.get? name with
    | none => rfl
    | some room =>
      obtain ⟨hout, hkeep⟩ := hh.keep_elsewhere hr hp
      rw [Option.bind_some, if_neg fun h => hout h.1, hkeep]
  unfold Ledger.depart
  cases hp : (l.profile id).room with
  | none => exact helsewhere (by rw [hp]; exact (Option.some_ne_none name).symm)
  | some here =>
    by_cases hn : name = here
    · subst hn
      rw [Option.elim_some, get?_roomsWithout_self]
      cases hr : l.rooms.get? name with
      | none => rfl
      | some room =>
        dsimp only [Option.bind_some]
        rw [hh.rest_eq hg hr]
    · rw [Option.elim_some, get?_roomsWithout_of_ne l id hn]
      exact helsewhere fun h => hn (Option.some.inj (h.symm.trans hp))

end Ledger

namespace Hub

variable {limits : Limits} {h : Hub} {id i : SessionId} {name : String}

theorem leave_of_not_admitted (out : id ∉ h.admitted) : h.leave id = h := by
  have hs : h.session id = .error .unknownSession := by
    rw [session, if_neg (mt List.contains_iff_mem.1 out)]
  rw [leave, hs]

def Lists (h : Hub) (name : String) (id : SessionId) : Prop :=
  ∃ room, h.rooms.get? name = some room ∧ id ∈ room.members

/-! ### What the others hear -/

theorem news_farewell (hne : i ≠ id) (hl : h.ledger.live i) (who name : String)
    (hwho : h.nameOf id = who) :
    (h.Lists name id ∧ h.Lists name i ∧
      Notice.news (h.farewell id name) i = [.memberLeft who name]) ∨
    (¬ (h.Lists name id ∧ h.Lists name i) ∧ Notice.news (h.farewell id name) i = []) := by
  unfold farewell Lists
  cases hr : h.rooms.get? name with
  | none =>
    refine .inr ⟨?_, rfl⟩
    rintro ⟨⟨room, hroom, -⟩, -⟩
    cases hroom
  | some room =>
    dsimp only
    by_cases hid : id ∈ room.members
    · rw [if_pos (Room.contains_iff.2 hid), Notice.news_singleton, audience_toRoom hne hl, hwho]
      by_cases hi : i ∈ room.members
      · exact .inl ⟨⟨room, rfl, hid⟩, ⟨room, rfl, hi⟩, if_pos (decide_eq_true hi)⟩
      · refine .inr ⟨?_, if_neg (mt of_decide_eq_true hi)⟩
        rintro ⟨-, other, hother, hmem⟩
        cases hother
        exact hi hmem
    · rw [if_neg (mt Room.contains_iff.1 hid)]
      refine .inr ⟨?_, rfl⟩
      rintro ⟨⟨other, hother, hmem⟩, -⟩
      cases hother
      exact hid hmem

theorem news_leave {s t : Session} (hh : h.ledger.Housed) (going : h.stopped = false)
    (hs : h.session id = .ok s) (ht : h.session i = .ok t) (hne : i ≠ id)
    (hl : h.ledger.live i) :
    (∃ name, h.Lists name id ∧ h.Lists name i ∧
      h.news (.leave id) i = [.memberLeft s.displayName name, .departed s.displayName]) ∨
    ((∀ name, ¬ (h.Lists name id ∧ h.Lists name i)) ∧
      h.news (.leave id) i = [.departed s.displayName]) := by
  have hears : h.ledger.hears id := Ledger.hears_iff.2 ⟨going, exists_session_iff.1 ⟨s, hs⟩⟩
  have hname : h.nameOf id = s.displayName := nameOf_of_get? (session_eq_ok_iff.1 hs).2
  have hall : (h.toAll (.departed s.displayName) (some id)).audience i :=
    audience_toAll.2 ⟨(session_eq_ok_iff.1 ht).1, hne⟩
  have hnews : h.news (.leave id) i =
      Notice.news ((h.ledger.profile id).room.elim [] (h.farewell id)) i ++
        [.departed s.displayName] := by
    rw [news, notices, if_pos hears, Notice.news_append, hname,
      Notice.news_singleton (h.toAll _ _), if_pos hall]
    rfl
  -- the leaver shares a room with somebody only where it believes to be
  have hthere : ∀ {name}, h.Lists name id → (h.ledger.profile id).room = some name := by
    rintro name ⟨room, hr, hi⟩
    exact (hh.listed hr hi).2
  rw [hnews]
  cases hp : (h.ledger.profile id).room with
  | none =>
    refine .inr ⟨fun name hboth => ?_, rfl⟩
    cases hp.symm.trans (hthere hboth.1)
  | some here =>
    rcases news_farewell hne hl _ here hname with ⟨hid, hi, hf⟩ | ⟨hnot, hf⟩
    · refine .inl ⟨here, hid, hi, ?_⟩
      rw [Option.elim_some, hf, List.singleton_append]
    · refine .inr ⟨fun name hboth => hnot ?_, ?_⟩
      · have heq : here = name := Option.some.inj (hp.symm.trans (hthere hboth.1))
        exact heq ▸ hboth
      · rw [Option.elim_some, hf, List.nil_append]

/-! ### What is left -/

/-- Whoever left is erased, and nobody else. -/
structure Erased (h : Hub) (id : SessionId) (k : Hub) : Prop where
  gone : id ∉ k.admitted
  unlisted : ∀ {name}, ¬ k.Lists name id
  unnamed : ∀ {nickname}, k.nicknames.get? nickname ≠ some id
  nowhere : ∀ {s}, k.pool.get? id = some s → s.profile.room = none
  stays : ∀ {i}, i ≠ id → (i ∈ k.admitted ↔ i ∈ h.admitted)
  profile : ∀ {i s}, i ≠ id → h.pool.get? i = some s →
    ∃ t, k.pool.get? i = some t ∧ t.profile = s.profile
  names : ∀ {i nickname}, i ≠ id →
    (k.nicknames.get? nickname = some i ↔ h.nicknames.get? nickname = some i)
  seats : ∀ {i s name}, i ≠ id → h.pool.get? i = some s → s.stopped = false →
    (k.Lists name i ↔ h.Lists name i)
  /-- Until the shutdown begins, whoever runs and has room for two more texts hears of it once, and
  first from the room that it shared with the leaver. -/
  heard : ∀ {i s t}, h.stopped = false → h.session id = .ok s → i ≠ id → h.session i = .ok t →
    t.stopped = false → t.outbox.intake = .open →
    t.outbox.items.length + 2 ≤ t.outbox.capacity →
    ∃ t', k.session i = .ok t' ∧
      ((∃ name, h.Lists name id ∧ h.Lists name i ∧ t'.outbox.items = t.outbox.items ++
        [.text (Message.memberLeft s.displayName name).text,
          .text (Message.departed s.displayName).text]) ∨
      ((∀ name, ¬ (h.Lists name id ∧ h.Lists name i)) ∧ t'.outbox.items = t.outbox.items ++
        [.text (Message.departed s.displayName).text]))
  absent : id ∉ h.admitted → k = h
  once : ∀ {es}, k.feasible es → .request (.join id) ∉ es → (k.run es).leave id = k.run es

theorem not_admitted_run {es : List Event} (hf : h.feasible es) (out : id ∉ h.admitted)
    (away : .request (.join id) ∉ es) : id ∉ (h.run es).admitted := by
  induction es generalizing h with
  | nil => exact out
  | cons e es ih =>
    rw [feasible, Bool.and_eq_true] at hf
    rw [List.mem_cons, not_or] at away
    refine ih hf.2 (fun hi => ?_) away.2
    rcases (ledger_step hf.1).joined_of_mem hi with ha | hj
    · exact out ha
    · exact away.1 (Event.joined?_eq_some_iff.1 hj).symm

theorem lists_leave (hg : h.ledger.Grounded) (hh : h.ledger.Housed) {s : Session} (hne : i ≠ id)
    (hs : h.pool.get? i = some s) (hrun : s.stopped = false) :
    (h.leave id).Lists name i ↔ h.Lists name i := by
  have hledger := h.ledger_leave id
  have hrooms : (h.leave id).rooms = (h.ledger.leave id).rooms := congrArg Ledger.rooms hledger
  unfold Lists
  rw [hrooms, Ledger.leave]
  by_cases hk : h.ledger.knows id
  · rw [if_pos hk, hh.get?_depart hg]
    constructor
    · rintro ⟨rest, hrest, hi⟩
      obtain ⟨room, hroom, hrest⟩ := Option.bind_eq_some_iff.1 hrest
      split at hrest
      · cases hrest
      · cases hrest
        exact ⟨room, hroom, (Room.mem_keep.1 hi).1⟩
    -- a room goes only when nobody is left in it who runs
    · rintro ⟨room, hroom, hi⟩
      have hrest : i ∈ (room.keep (· ≠ id)).members := Room.mem_keep.2 ⟨hi, decide_eq_true hne⟩
      have hrunning : h.ledger.running i := by
        rw [show h.ledger.running i = !s.stopped from Pool.view_of_get? hs, hrun]
        rfl
      have hlive : (room.keep (· ≠ id)).members.any h.ledger.live :=
        List.any_eq_true.2 ⟨i, hrest, (hg.live_iff (hh.listed hroom hi).1).2 hrunning⟩
      refine ⟨_, ?_, hrest⟩
      show (h.rooms.get? name).bind _ = _
      rw [hroom, Option.bind_some, if_neg fun hc => hc.2 hlive]
  · rw [if_neg hk]
    rfl

theorem heard_leave (hstays : i ∈ (h.leave id).admitted) {t : Session} (ht : h.session i = .ok t)
    (hrun : t.stopped = false) (hopen : t.outbox.intake = .open)
    (hspace : t.outbox.items.length + (h.news (.leave id) i).length ≤ t.outbox.capacity) :
    ∃ t', (h.leave id).session i = .ok t' ∧
      t'.outbox.items = t.outbox.items ++ (h.news (.leave id) i).map fun m => .text m.text := by
  have hget := (session_eq_ok_iff.1 ht).2
  have hqueued : h.queued (.leave id) i = h.news (.leave id) i := by
    rw [queued, hget, Option.elim_some]
    exact Session.kept_eq_self hrun hopen hspace
  have hafter := h.get?_handle (.leave id) i
  rw [hget, Option.map_some] at hafter
  have hitems := items_handle hget hafter
  rw [hqueued] at hitems
  exact ⟨_, session_eq_ok_iff.2 ⟨hstays, hafter⟩, hitems⟩

theorem leave_erases (hr : h.Reachable limits) (id : SessionId) : Erased h id (h.leave id) := by
  have hg := hr.grounded
  have hh := hr.housed
  have hafter : (h.leave id).Reachable limits := hr.step (e := .request (.leave id)) rfl
  have hledger := h.ledger_leave id
  have hadmitted : (h.leave id).admitted = (h.ledger.leave id).admitted :=
    congrArg Ledger.admitted hledger
  have hnicknames : (h.leave id).nicknames = (h.ledger.leave id).nicknames :=
    congrArg Ledger.nicknames hledger
  have hgone : id ∉ (h.leave id).admitted := hadmitted ▸ Ledger.not_mem_leave hg id
  have hstays : ∀ {i}, i ≠ id → (i ∈ (h.leave id).admitted ↔ i ∈ h.admitted) := by
    intro i hne
    rw [hadmitted]
    exact Ledger.mem_leave hne
  refine {
    gone := hgone
    unlisted := ?_
    unnamed := fun hn => hgone (hafter.indexed hn).1
    nowhere := ?_
    stays := hstays
    profile := ?_
    names := ?_
    seats := fun hne hs hrun => lists_leave hg hh hne hs hrun
    heard := ?_
    absent := leave_of_not_admitted
    once := fun hf away => leave_of_not_admitted (not_admitted_run hf hgone away) }
  · rintro name ⟨room, hroom, hmem⟩
    exact hgone (hafter.housed.listed hroom hmem).1
  · intro s hs
    have hp : (h.leave id).ledger.profile id = s.profile := Pool.view_of_get? hs
    rw [← hp]
    exact hafter.housed.outside hgone
  · intro i s hne hs
    have hp : h.ledger.profile i = s.profile := Pool.view_of_get? hs
    have hget := h.get?_handle (.leave id) i
    rw [hs, Option.map_some] at hget
    exact ⟨_, hget, (Ledger.profile_leave hne).trans hp⟩
  · intro i nickname hne
    rw [hnicknames]
    exact hr.indexed.get?_leave hg hne nickname
  · intro i s t going hs hne ht hrun hopen hspace
    have hlive : h.ledger.live i := by
      rw [hg.live_iff (session_eq_ok_iff.1 ht).1, running_of_session ht, hrun]
      rfl
    have hin := (hstays hne).2 (session_eq_ok_iff.1 ht).1
    rcases news_leave hh going hs ht hne hlive with ⟨name, hid, hi, hnews⟩ | ⟨hnot, hnews⟩
    · have hroom : t.outbox.items.length + (h.news (.leave id) i).length ≤ t.outbox.capacity := by
        rw [hnews]
        exact hspace
      obtain ⟨t', ht', hitems⟩ := heard_leave hin ht hrun hopen hroom
      rw [hnews] at hitems
      exact ⟨t', ht', .inl ⟨name, hid, hi, hitems⟩⟩
    · have hroom : t.outbox.items.length + (h.news (.leave id) i).length ≤ t.outbox.capacity := by
        rw [hnews]
        exact Nat.le_of_succ_le hspace
      obtain ⟨t', ht', hitems⟩ := heard_leave hin ht hrun hopen hroom
      rw [hnews] at hitems
      exact ⟨t', ht', .inr ⟨hnot, hitems⟩⟩

def farewells : List Event :=
  [.create "a" .line 16, .create "b" .line 16, .create "c" .line 16, .request (.join 0),
    .request (.join 1), .request (.join 2), .request (.register 0 "x"), .request (.joinRoom 0 "r"),
    .request (.joinRoom 1 "r"), .act 0 .stop, .request (.register 1 "x")]

theorem leave_erases_farewells :
    (start .standard none "").feasible farewells ∧
      ((start .standard none "").run farewells).Reachable .standard ∧
      ((start .standard none "").run farewells).nicknames.get? "x" = some 1 ∧
      (((start .standard none "").run farewells).ledger.profile 0).nickname = some "x" ∧
      ((start .standard none "").run farewells).rooms.get? "r" = some ⟨"r", 100, [0, 1]⟩ ∧
      Erased ((start .standard none "").run farewells) 0
        (((start .standard none "").run farewells).leave 0) :=
  ⟨by decide, reachable_run (by decide), by decide +kernel, by decide +kernel, by decide +kernel,
    leave_erases (reachable_run (by decide)) 0⟩

end Hub
end ChatRelay

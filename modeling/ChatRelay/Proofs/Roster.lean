import ChatRelay.Proofs.Attribution
import ChatRelay.Proofs.Company
import ChatRelay.Proofs.Departure
import ChatRelay.Proofs.Presence
import ChatRelay.Proofs.Seats

/-! What somebody is told who enters a room: the names of all in it who run, in the order in which
they entered, and last the own one with a mark on it that no name can bear. Nothing else changes
than where that one is. -/

namespace ChatRelay

open Text (OneWord)

theorem not_oneWord_marked (text : String) : ¬ OneWord (text ++ " (You)") := by
  rw [Text.oneWord_append, not_and]
  intro _
  decide

namespace Ledger

variable {l k : Ledger} {e : Hub.Event} {name : String} {room rest : Room}

theorem Step.members_cases (hs : l.Step e k) (hg : l.Grounded) (hh : l.Housed)
    (hr : k.rooms.get? name = some rest) :
    (∃ room, l.rooms.get? name = some room ∧ rest.members.Sublist room.members) ∨
      ∃ id, e = .request (.joinRoom id name) ∧ l.seeks id name ∧
        (l.roomAt name).members.length < (l.roomAt name).limit := by
  cases hs with
  | rest | create | stop | expire | welcome | rename | halt =>
    exact .inl ⟨rest, hr, List.Sublist.refl _⟩
  | @depart id =>
    rw [hh.get?_depart hg id name] at hr
    obtain ⟨room, hroom, hr⟩ := Option.bind_eq_some_iff.1 hr
    split at hr
    · cases hr
    · rw [← Option.some.inj hr]
      exact .inl ⟨room, hroom, List.filter_sublist⟩
  | reenter seeks listed => exact absurd listed (hh.not_mem_roomAt hg seeks.2.2 _)
  | refuse => exact .inl ⟨rest, hh.get?_of_refused hg hr, List.Sublist.refl _⟩
  | @enter id n seeks _ space =>
    by_cases hn : name = n
    · subst hn
      exact .inr ⟨id, rfl, seeks, space⟩
    · have hget := Registry.get?_insert l.rooms n
        { l.roomAt n with members := (l.roomAt n).members ++ [id] } name
      rw [if_neg hn] at hget
      exact .inl ⟨rest, hget.symm.trans hr, List.Sublist.refl _⟩
  | @exit id n =>
    by_cases hn : name = n
    · subst hn
      obtain ⟨room, hroom, rfl, -⟩ := hh.left hg hr
      exact .inl ⟨room, hroom, List.filter_sublist⟩
    · have hget := l.get?_roomsWithout_of_ne id hn
      exact .inl ⟨rest, hget.symm.trans hr, List.Sublist.refl _⟩

theorem Housed.mem_iff {i : SessionId} (hh : l.Housed) (hroom : l.rooms.get? name = some room)
    (hi : l.running i) :
    i ∈ room.members ↔ i ∈ l.admitted ∧ (l.profile i).room = some name := by
  refine ⟨fun hmem => hh.listed hroom hmem, fun ⟨ha, hp⟩ => ?_⟩
  obtain ⟨home, hhome, hmem⟩ := hh.home ha hi hp
  rw [Option.some.inj (hroom.symm.trans hhome)]
  exact hmem

end Ledger

namespace Hub

variable {limits : Limits} {h : Hub} {id : SessionId} {s : Session} {name : String}
  {roster : List String} {came : List SessionId} {es : List Event}

/-! ### Whoever enters comes last -/

def roomWith (h : Hub) (id : SessionId) (name : String) : Room :=
  { h.roomFor name with members := (h.roomFor name).members ++ [id] }

def HasSeat (h : Hub) (name : String) : Prop :=
  (h.roomFor name).members.length < (h.roomFor name).limit

theorem not_mem_roomFor (hg : h.ledger.Grounded) (hh : h.ledger.Housed)
    (seeks : h.ledger.seeks id name) : id ∉ (h.roomFor name).members := by
  have hnew := hh.not_mem_roomAt hg seeks.2.2 name
  rwa [hh.roomAt_eq hg] at hnew

theorem joinRoom_eq_ok_iff (hg : h.ledger.Grounded) (hh : h.ledger.Housed) :
    (h.joinRoom id name).1 = .ok roster ↔ h.ledger.seeks id name ∧ h.HasSeat name ∧
      roster = (h.roomWith id name).roster (h.joinRoom id name).2.pool id := by
  rw [seeks_iff]
  cases hq : h.roomSeeker id name with
  | error fault =>
    have he : h.joinRoom id name = (.error fault, h) := by rw [joinRoom, hq]
    simp [he]
  | ok s =>
    have new := not_mem_roomFor hg hh (seeks_iff.2 ⟨s, hq⟩)
    have hkeep : (h.roomFor name).keep h.pool.present = h.roomFor name :=
      (Room.purge_eq ..).symm.trans (purge_roomFor hg hh name)
    have hcases := Room.add_cases (h.roomFor name) h.pool id
    rw [hkeep] at hcases
    rcases hcases with ⟨listed, -⟩ | ⟨-, full, hadd⟩ | ⟨-, space, hadd⟩
    · exact absurd listed new
    · have hanswer : (h.joinRoom id name).1 = .error (.roomFull (h.roomFor name).name) := by
        rw [joinRoom_eq_error_iff.2 (.inr ⟨⟨s, hq⟩, _, hadd, rfl⟩)]
      rw [hanswer]
      exact ⟨fun he => (nomatch he), fun he => absurd he.2.1 (Nat.not_lt.2 full)⟩
    · have hanswer : (h.joinRoom id name).1 =
          .ok ((h.roomWith id name).roster (h.joinRoom id name).2.pool id) := by
        unfold joinRoom
        rw [hq]
        dsimp only
        rw [show (h.rooms.get? name).getD (.create name h.limits.roomMembers) = h.roomFor name
          from rfl, hadd]
        rfl
      rw [hanswer, Except.ok.injEq, eq_comm]
      exact ⟨fun he => ⟨⟨s, rfl⟩, space, he⟩, fun he => he.2.2⟩

theorem ledger_joinRoom_of_seat (hg : h.ledger.Grounded) (hh : h.ledger.Housed)
    (seeks : h.ledger.seeks id name) (space : h.HasSeat name) :
    (h.joinRoom id name).2.ledger = h.ledger.seat id name (h.roomWith id name) := by
  have hat : h.ledger.roomAt name = h.roomFor name := hh.roomAt_eq hg name
  have new := not_mem_roomFor hg hh seeks
  rw [ledger_joinRoom, Ledger.joinRoom, hat, if_pos seeks, if_neg (mt Room.contains_iff.1 new),
    if_neg (Nat.not_le.2 space)]
  rfl

theorem get?_rooms_joinRoom_of_seat (hg : h.ledger.Grounded) (hh : h.ledger.Housed)
    (seeks : h.ledger.seeks id name) (space : h.HasSeat name) (n : String) :
    (h.joinRoom id name).2.rooms.get? n =
      if n = name then some (h.roomWith id name) else h.rooms.get? n := by
  have hrooms : (h.joinRoom id name).2.rooms = h.rooms.insert name (h.roomWith id name) :=
    congrArg Ledger.rooms (ledger_joinRoom_of_seat hg hh seeks space)
  rw [hrooms]
  exact Registry.get?_insert ..

/-! ### Who entered a room so far -/

def entrant? (h : Hub) (name : String) : Event → Option SessionId
  | .request (.joinRoom id room) =>
    if room = name ∧ (h.joinRoom id room).1.toBool then some id else none
  | _ => none

def entrants (h : Hub) (name : String) : List Event → List SessionId
  | [] => []
  | e :: es => (h.entrant? name e).toList ++ (h.step e).entrants name es

theorem entrant?_eq_some_iff (hg : h.ledger.Grounded) (hh : h.ledger.Housed) {e : Event} :
    h.entrant? name e = some id ↔
      e = .request (.joinRoom id name) ∧ h.ledger.seeks id name ∧ h.HasSeat name := by
  have hlet : ∀ i, (h.joinRoom i name).1.toBool ↔ h.ledger.seeks i name ∧ h.HasSeat name := by
    intro i
    have hiff : ∀ roster, (h.joinRoom i name).1 = .ok roster ↔ h.ledger.seeks i name ∧
        h.HasSeat name ∧ roster = (h.roomWith i name).roster (h.joinRoom i name).2.pool i :=
      fun roster => joinRoom_eq_ok_iff hg hh
    cases hj : (h.joinRoom i name).1 with
    | ok roster => exact iff_of_true rfl ⟨((hiff roster).1 hj).1, ((hiff roster).1 hj).2.1⟩
    | error fault =>
      refine iff_of_false Bool.false_ne_true fun hs => ?_
      have hok := (hiff _).2 ⟨hs.1, hs.2, rfl⟩
      rw [hj] at hok
      cases hok
  unfold entrant?
  constructor
  · intro he
    split at he
    · next i room =>
      split at he
      · next hc =>
        obtain ⟨rfl, hok⟩ := hc
        cases he
        exact ⟨rfl, (hlet _).1 hok⟩
      · cases he
    · cases he
  · rintro ⟨rfl, hs⟩
    exact if_pos ⟨rfl, (hlet id).2 hs⟩

def InOrder (h : Hub) (name : String) (came : List SessionId) : Prop :=
  ∀ room, h.rooms.get? name = some room → room.members.Sublist came.dedup

theorem InOrder.roomFor (ho : h.InOrder name came) :
    (h.roomFor name).members.Sublist came.dedup := by
  unfold Hub.roomFor
  cases hr : h.rooms.get? name with
  | none => exact List.nil_sublist _
  | some room => exact ho room hr

theorem InOrder.step {e : Event} (ho : h.InOrder name came) (hg : h.ledger.Grounded)
    (hh : h.ledger.Housed) (he : h.allows e) :
    (h.step e).InOrder name (came ++ (h.entrant? name e).toList) := by
  intro rest hr
  cases hentrant : h.entrant? name e with
  | some id =>
    obtain ⟨rfl, seeks, space⟩ := (entrant?_eq_some_iff hg hh).1 hentrant
    have hget := (get?_rooms_joinRoom_of_seat hg hh seeks space name).trans (if_pos rfl)
    rw [← Option.some.inj (hget.symm.trans hr)]
    exact sublist_dedup_concat ho.roomFor (not_mem_roomFor hg hh seeks)
  | none =>
    rw [Option.toList_none, List.append_nil]
    rcases (ledger_step he).members_cases hg hh hr with
      ⟨room, hroom, hsub⟩ | ⟨id, rfl, seeks, space⟩
    · exact hsub.trans (ho room hroom)
    · have hat : h.ledger.roomAt name = h.roomFor name := hh.roomAt_eq hg name
      rw [hat] at space
      rw [(entrant?_eq_some_iff hg hh).2 ⟨rfl, seeks, space⟩] at hentrant
      cases hentrant

theorem InOrder.run (hr : h.Reachable limits) (ho : h.InOrder name came) (hf : h.feasible es) :
    (h.run es).InOrder name (came ++ h.entrants name es) := by
  induction es generalizing h came with
  | nil =>
    rw [entrants, List.append_nil]
    exact ho
  | cons e es ih =>
    rw [feasible, Bool.and_eq_true] at hf
    rw [entrants, ← List.append_assoc]
    exact ih (hr.step hf.1) (ho.step hr.grounded hr.housed hf.1) hf.2

/-! ### What is told of a room -/

theorem roster_eq (room : Room) (viewer : SessionId) :
    room.roster h.pool viewer = (room.liveMembers h.pool).map fun i =>
      if i = viewer then h.nameOf i ++ " (You)" else h.nameOf i := by
  unfold Room.roster Room.liveMembers
  induction room.members with
  | nil => rfl
  | cons i ids ih =>
    cases hl : h.pool.live? i with
    | none => simpa [hl] using ih
    | some s =>
      have hname := nameOf_of_get? (Pool.live?_eq_some_iff.1 hl).1
      rw [List.filterMap_cons, hl, List.filter_cons_of_pos (by rw [hl]; rfl), List.map_cons, ih,
        hname]
      rfl

theorem nameOf_ne_marked (hr : h.Reachable limits)
    (words : ∀ t ∈ h.pool.sessions, OneWord t.remoteId) (i : SessionId) (hi : i < h.pool.size)
    (text : String) : h.nameOf i ≠ text ++ " (You)" := by
  obtain ⟨t, ht⟩ := Option.isSome_iff_exists.1 (Pool.isSome_get?_iff.2 hi)
  have hprofile : h.ledger.profile i = t.profile := Pool.view_of_get? ht
  have hvetted := hr.vetted i
  rw [hprofile] at hvetted
  have hword : OneWord (h.nameOf i) := by
    rw [nameOf_of_get? ht, Session.displayName]
    cases hn : t.profile.nickname with
    | none => exact words t (List.mem_of_getElem? ht)
    | some nickname => exact Name.oneWord_of_check (Name.check_eq_ok_iff.2 (hvetted.nickname hn))
  rintro heq
  exact not_oneWord_marked text (heq ▸ hword)

/-- A session is let into a room where `others` are, after all who `came` there, itself the last. -/
structure Entered (limits : Limits) (h k : Hub) (id : SessionId) (s : Session) (name : String)
    (came others : List SessionId) (roster : List String) : Prop where
  moved : k.pool.profile = Function.update h.pool.profile id { s.profile with room := some name }
  nicknames : k.nicknames = h.nicknames
  elsewhere : ∀ n, n ≠ name → k.rooms.get? n = h.rooms.get? n
  last : ∃ room, k.rooms.get? name = some room ∧ room.members = others ++ [id]
  ordered : (others ++ [id]).Sublist came.dedup
  complete : ∀ i, k.pool.running i →
    (i ∈ others ++ [id] ↔ i ∈ k.admitted ∧ (k.pool.profile i).room = some name)
  told : roster = (others.filter k.pool.running).map k.nameOf ++ [s.displayName ++ " (You)"]
  unmarked : ∀ i ∈ others, ∀ text, k.nameOf i ≠ text ++ " (You)"
  counted : 1 ≤ roster.length ∧ roster.length ≤ limits.roomMembers

theorem roster_roomWith (hg : h.ledger.Grounded) {others : List SessionId} {room : Room}
    (hroom : room.members = others ++ [id]) (admitted : ∀ i ∈ room.members, i ∈ h.admitted)
    (new : id ∉ others) (hrun : h.pool.running id) :
    room.roster h.pool id =
      (others.filter h.pool.running).map h.nameOf ++ [h.nameOf id ++ " (You)"] := by
  have hlive : room.liveMembers h.pool = others.filter h.pool.running ++ [id] := by
    have hrunning : room.liveMembers h.pool = room.members.filter h.pool.running := by
      refine List.filter_congr fun i hi => ?_
      rw [live_ledger, Bool.eq_iff_iff, hg.live_iff (admitted i hi)]
      rfl
    rw [hrunning, hroom, List.filter_append, List.filter_cons_of_pos hrun, List.filter_nil]
  have hothers : ∀ i ∈ others.filter h.pool.running,
      (if i = id then h.nameOf i ++ " (You)" else h.nameOf i) = h.nameOf i := by
    intro i hi
    refine if_neg fun he => new ?_
    rw [← he]
    exact (List.mem_filter.1 hi).1
  rw [roster_eq, hlive, List.map_append, List.map_congr_left hothers, List.map_singleton,
    if_pos rfl]

theorem entered_of_seat (hr : h.Reachable limits) (hs : h.session id = .ok s)
    (hrun : s.stopped = false) (words : ∀ t ∈ h.pool.sessions, OneWord t.remoteId)
    (hjoin : (h.joinRoom id name).1 = .ok roster)
    (ordered : (h.joinRoom id name).2.InOrder name came) :
    Entered limits h (h.joinRoom id name).2 id s name came (h.roomFor name).members roster := by
  obtain ⟨seeks, space, htold⟩ := (joinRoom_eq_ok_iff hr.grounded hr.housed).1 hjoin
  have hallows : h.allows (.request (.joinRoom id name)) := rfl
  have hk : (h.joinRoom id name).2.Reachable limits := hr.step hallows
  have hnames : ∀ i, i < h.ledger.size → (h.joinRoom id name).2.nameOf i = h.nameOf i :=
    fun i hi => nameOf_step hallows hi nofun
  have hledger := ledger_joinRoom_of_seat hr.grounded hr.housed seeks space
  have hrooms := get?_rooms_joinRoom_of_seat hr.grounded hr.housed seeks space
  have new := not_mem_roomFor hr.grounded hr.housed seeks
  generalize (h.joinRoom id name).2 = k at *
  have hhere := (hrooms name).trans (if_pos rfl)
  have hlisted : ∀ i ∈ (h.roomWith id name).members, i ∈ k.admitted ∧
      (k.pool.profile i).room = some name := fun i hi => hk.housed.listed hhere hi
  have hknown : ∀ i ∈ (h.roomWith id name).members, i < h.ledger.size := by
    intro i hi
    have hsize : k.ledger.size = h.ledger.size := by
      rw [hledger]
      rfl
    rw [← hsize]
    exact hk.grounded.known i (hlisted i hi).1
  have hid : id ∈ (h.roomWith id name).members :=
    List.mem_append_right _ (List.mem_singleton_self id)
  have hstill : k.pool.running id := by
    rw [show k.pool.running = h.pool.running from congrArg Ledger.running hledger]
    exact (running_of_session hs).trans (by rw [hrun]; rfl)
  have hname : k.nameOf id = s.displayName :=
    (hnames id (hknown id hid)).trans (nameOf_of_get? (session_eq_ok_iff.1 hs).2)
  have hroster := roster_roomWith hk.grounded rfl (fun i hi => (hlisted i hi).1) new hstill
  rw [hname] at hroster
  refine ⟨?_, congrArg Ledger.nicknames hledger, fun n hn => (hrooms n).trans (if_neg hn),
    ⟨_, hhere, rfl⟩, ordered _ hhere, fun i hi => hk.housed.mem_iff hhere hi,
    htold.trans hroster, ?_, ?_⟩
  · rw [← profile_of_session hs]
    exact congrArg Ledger.profile hledger
  · intro i hi text
    have hsize := hknown i (List.mem_append_left _ hi)
    rw [hnames i hsize]
    exact nameOf_ne_marked hr words i hsize text
  · rw [htold.trans hroster, List.length_append, List.length_map, List.length_singleton]
    have hfew := List.length_filter_le k.pool.running (h.roomFor name).members
    have hlimit := (roomFor_sound hr.housed name).2.1
    rw [hr.limits_eq] at hlimit
    have hspace : (h.roomFor name).members.length < (h.roomFor name).limit := space
    omega

/-- Whoever enters a room is told the names of all who run in it. -/
theorem roster_told {archive : Option Archive} {stamp : String}
    (hf : (start limits archive stamp).feasible es)
    (hs : ((start limits archive stamp).run es).session id = .ok s) (hrun : s.stopped = false)
    (words : ∀ t ∈ ((start limits archive stamp).run es).pool.sessions, OneWord t.remoteId)
    (hanswer : (((start limits archive stamp).run es).handle (.joinRoom id name)).1 =
      .ok (.roster roster)) :
    ∃ others, Entered limits ((start limits archive stamp).run es)
      (((start limits archive stamp).run es).handle (.joinRoom id name)).2 id s name
      ((start limits archive stamp).entrants name (es ++ [.request (.joinRoom id name)])) others
      roster := by
  have hr : ((start limits archive stamp).run es).Reachable limits := reachable_run hf
  have hjoin : (((start limits archive stamp).run es).joinRoom id name).1 = .ok roster := by
    obtain ⟨told, htold, heq⟩ := of_map_eq_ok hanswer
    exact htold.trans (congrArg Except.ok (Answer.roster.inj heq))
  have hfirst : (start limits archive stamp).InOrder name [] := fun room hroom => nomatch hroom
  have hwhole : (start limits archive stamp).feasible (es ++ [.request (.joinRoom id name)]) := by
    rw [feasible_append, hf]
    rfl
  have hordered := hfirst.run ⟨archive, stamp, [], rfl, rfl⟩ hwhole
  rw [run_concat] at hordered
  exact ⟨_, entered_of_seat hr hs hrun words hjoin hordered⟩

def mingling : List Event :=
  [.create "a" .line 8, .create "b" .line 8, .create "c" .line 8, .create "d" .line 8,
    .request (.join 0), .request (.join 1), .request (.join 2), .request (.join 3),
    .request (.joinRoom 0 "r"), .request (.joinRoom 1 "r"), .request (.joinRoom 2 "r"),
    .request (.leaveRoom 0 "r"), .request (.joinRoom 0 "r"), .request (.register 0 "(You)"),
    .act 1 .stop]

theorem roster_told_mingling :
    (start .standard none "").feasible mingling ∧
      (start .standard none "").entrants "r" (mingling ++ [.request (.joinRoom 3 "r")]) =
        [0, 1, 2, 0, 3] ∧
      (∀ t ∈ ((start .standard none "").run mingling).pool.sessions, OneWord t.remoteId) ∧
      (((start .standard none "").run mingling).handle (.joinRoom 3 "r")).1 =
        .ok (.roster ["c", "(You)", "d (You)"]) ∧
      ∃ s others, ((start .standard none "").run mingling).session 3 = .ok s ∧
        s.stopped = false ∧ Entered .standard ((start .standard none "").run mingling)
          (((start .standard none "").run mingling).handle (.joinRoom 3 "r")).2 3 s "r"
          ((start .standard none "").entrants "r" (mingling ++ [.request (.joinRoom 3 "r")]))
          others ["c", "(You)", "d (You)"] := by
  have hf : (start .standard none "").feasible mingling := by decide
  have words : ∀ t ∈ ((start .standard none "").run mingling).pool.sessions,
      OneWord t.remoteId := by decide +kernel
  have hanswer : (((start .standard none "").run mingling).handle (.joinRoom 3 "r")).1 =
      .ok (.roster ["c", "(You)", "d (You)"]) := by decide +kernel
  obtain ⟨s, hs⟩ : ∃ s, ((start .standard none "").run mingling).session 3 = .ok s :=
    exists_session_iff.2 (by decide +kernel)
  have hrun : s.stopped = false := by
    have hrunning : ((start .standard none "").run mingling).ledger.running 3 := by decide +kernel
    rwa [running_of_session hs, Bool.not_eq_true'] at hrunning
  obtain ⟨others, hentered⟩ := roster_told hf hs hrun words hanswer
  exact ⟨hf, by decide +kernel, words, hanswer, s, others, hs, hrun, hentered⟩

end Hub
end ChatRelay

import ChatRelay.Proofs.Admission

/-! Rooms and profiles agree. A room lists nobody but admitted sessions that know themselves to be
there; who runs and believes to be in a room is listed in it; and every room that stands has
members, within its bounds. A session that has stopped may believe to be in a room that went, or
that was opened again without it. -/

namespace ChatRelay
namespace Room

structure Orderly (limits : Limits) (name : String) (room : Room) : Prop where
  named : room.name = name
  valid : Name.flaw? .room limits.nameLength name = none
  limited : room.limit = limits.roomMembers
  inhabited : room.members ≠ []
  bounded : room.members.length ≤ room.limit
  nodup : room.members.Nodup

theorem mem_keep {room : Room} {p : SessionId → Bool} {id : SessionId} :
    id ∈ (room.keep p).members ↔ id ∈ room.members ∧ p id := List.mem_filter

theorem keep_eq_self {room : Room} {p : SessionId → Bool} (h : ∀ id ∈ room.members, p id) :
    room.keep p = room := by
  rw [keep, List.filter_eq_self.2 h]

theorem Orderly.keep {limits : Limits} {name : String} {room : Room} (ho : room.Orderly limits name)
    {p : SessionId → Bool} (h : (room.keep p).members ≠ []) :
    (room.keep p).Orderly limits name where
  named := ho.named
  valid := ho.valid
  limited := ho.limited
  inhabited := h
  bounded := Nat.le_trans (List.length_filter_le p room.members) ho.bounded
  nodup := ho.nodup.filter p

end Room

namespace Ledger

variable {l k : Ledger} {e : Hub.Event} {id : SessionId} {name : String} {room : Room}

/-! ### What stands under a name -/

theorem get?_settled (l : Ledger) (name : String) (room : Room) (n : String) :
    (l.settled name room).get? n =
      if n = name then if room.members.any l.live then some room else none
      else l.rooms.get? n := by
  unfold settled
  cases room.members.any l.live
  · rw [if_neg Bool.false_ne_true, Registry.get?_erase, if_neg Bool.false_ne_true]
  · rw [if_pos rfl, Registry.get?_insert, if_pos rfl]

theorem get?_roomsWithout_of_ne (l : Ledger) (id : SessionId) {n : String} (hn : n ≠ name) :
    (l.roomsWithout id name).get? n = l.rooms.get? n := by
  unfold roomsWithout
  cases l.rooms.get? name with
  | none => rfl
  | some room =>
    dsimp only
    split
    · rw [get?_settled, if_neg hn]
    · rw [Registry.get?_insert, if_neg hn]

theorem get?_roomsWithout_self (l : Ledger) (id : SessionId) (name : String) :
    (l.roomsWithout id name).get? name = (l.rooms.get? name).bind fun room =>
      let rest := (room.keep (· ≠ id)).keep l.present
      if id ∈ room.members ∧ ¬ rest.members.any l.live then none else some rest := by
  unfold roomsWithout
  cases hr : l.rooms.get? name with
  | none => exact hr
  | some room =>
    dsimp only [Option.bind_some]
    by_cases hc : id ∈ room.members
    · rw [if_pos (Room.contains_iff.2 hc), get?_settled, if_pos rfl]
      by_cases ha : ((room.keep (· ≠ id)).keep l.present).members.any l.live
      · rw [if_pos ha, if_neg fun h => h.2 ha]
      · rw [if_neg ha, if_pos ⟨hc, ha⟩]
    · rw [if_neg (mt Room.contains_iff.1 hc), Registry.get?_insert, if_pos rfl,
        if_neg fun h => hc h.1]

theorem room_rename (l : Ledger) (id : SessionId) (nickname : String) (i : SessionId) :
    ((l.rename id nickname).profile i).room = (l.profile i).room := by
  by_cases hi : i = id
  · simp only [rename, hi, Function.update_self]
  · simp only [rename, Function.update_of_ne hi]

theorem Step.room_cases (hs : l.Step e k) (id : SessionId) :
    (k.profile id).room = (l.profile id).room ∨
      ((e = .request (.leave id) ∨ ∃ name, e = .request (.leaveRoom id name)) ∧
        (k.profile id).room = none) ∨
      ∃ name room, l.seeks id name ∧ e = .request (.joinRoom id name) ∧
        id ∈ room.members ∧ k = l.seat id name room := by
  have hother : ∀ {i room}, id ≠ i →
      ((l.setRoom i room).profile id).room = (l.profile id).room := fun hi =>
    congrArg Profile.room (l.profile_setRoom_of_ne hi _)
  have hself : ((l.setRoom id none).profile id).room = none := room_setRoom l id none
  cases hs with
  | rest | create | stop | expire | welcome | refuse | halt => exact .inl rfl
  | rename => exact .inl (room_rename l _ _ id)
  | @depart i =>
    by_cases hi : id = i
    · subst hi
      exact .inr (.inl ⟨.inl rfl, hself⟩)
    · exact .inl (hother hi)
  | @exit i name =>
    by_cases hi : id = i
    · subst hi
      exact .inr (.inl ⟨.inr ⟨name, rfl⟩, hself⟩)
    · exact .inl (hother hi)
  | @reenter i name seeks listed =>
    by_cases hi : id = i
    · subst hi
      exact .inr (.inr ⟨name, _, seeks, rfl, listed, rfl⟩)
    · exact .inl (hother hi)
  | @enter i name seeks =>
    by_cases hi : id = i
    · subst hi
      have hlisted : id ∈ (l.roomAt name).members ++ [id] :=
        List.mem_append_right _ (List.mem_singleton_self id)
      exact .inr (.inr ⟨name, _, seeks, rfl, hlisted, rfl⟩)
    · exact .inl (hother hi)

/-! ### The agreement -/

structure Housed (l : Ledger) : Prop where
  listed : ∀ {name room id}, l.rooms.get? name = some room → id ∈ room.members →
    id ∈ l.admitted ∧ (l.profile id).room = some name
  home : ∀ {id name}, id ∈ l.admitted → l.running id → (l.profile id).room = some name →
    ∃ room, l.rooms.get? name = some room ∧ id ∈ room.members
  outside : ∀ {id}, id ∉ l.admitted → (l.profile id).room = none
  orderly : ∀ {name room}, l.rooms.get? name = some room → room.Orderly l.limits name

namespace Housed

theorem present (hh : l.Housed) (hg : l.Grounded) (hr : l.rooms.get? name = some room) :
    ∀ id ∈ room.members, l.present id := fun id hi => hg.present id (hh.listed hr hi).1

theorem roomAt_eq (hh : l.Housed) (hg : l.Grounded) (name : String) :
    l.roomAt name = (l.rooms.get? name).getD (.create name l.limits.roomMembers) := by
  unfold roomAt
  apply Room.keep_eq_self
  cases hr : l.rooms.get? name with
  | none => exact fun _ hi => absurd hi List.not_mem_nil
  | some room => exact hh.present hg hr

theorem rest_eq (hh : l.Housed) (hg : l.Grounded) (hr : l.rooms.get? name = some room)
    (id : SessionId) : (room.keep (· ≠ id)).keep l.present = room.keep (· ≠ id) := by
  apply Room.keep_eq_self
  intro i hi
  exact hh.present hg hr i (Room.mem_keep.1 hi).1

theorem not_listed (hh : l.Housed) (hn : (l.profile id).room = none)
    (hr : l.rooms.get? name = some room) : id ∉ room.members := by
  intro hi
  have hp := (hh.listed hr hi).2
  rw [hn] at hp
  cases hp

theorem roomAt_eq_of_get? (hh : l.Housed) (hg : l.Grounded) (hr : l.rooms.get? name = some room) :
    l.roomAt name = room := by
  rw [hh.roomAt_eq hg, hr, Option.getD_some]

theorem exists_of_mem_roomAt (hh : l.Housed) (hg : l.Grounded)
    (hi : id ∈ (l.roomAt name).members) :
    ∃ room, l.rooms.get? name = some room ∧ id ∈ room.members := by
  rw [hh.roomAt_eq hg] at hi
  cases hr : l.rooms.get? name with
  | none =>
    rw [hr] at hi
    cases hi
  | some room =>
    rw [hr] at hi
    exact ⟨room, rfl, hi⟩

theorem not_mem_roomAt (hh : l.Housed) (hg : l.Grounded) (hn : (l.profile id).room = none)
    (name : String) : id ∉ (l.roomAt name).members := by
  intro hi
  obtain ⟨room, hr, hmem⟩ := hh.exists_of_mem_roomAt hg hi
  exact hh.not_listed hn hr hmem

theorem of_same (hh : l.Housed) (hlimits : k.limits = l.limits) (hadm : k.admitted = l.admitted)
    (hrooms : k.rooms = l.rooms) (hroom : ∀ i, (k.profile i).room = (l.profile i).room)
    (hrun : ∀ i ∈ l.admitted, k.running i → l.running i) : k.Housed where
  listed hr hi := by
    rw [hadm, hroom]
    exact hh.listed (hrooms ▸ hr) hi
  home ha hr hp := by
    rw [hrooms]
    exact hh.home (hadm ▸ ha) (hrun _ (hadm ▸ ha) hr) (hroom _ ▸ hp)
  outside ha := by
    rw [hroom]
    exact hh.outside (hadm ▸ ha)
  orderly hr := by
    rw [hlimits]
    exact hh.orderly (hrooms ▸ hr)

theorem welcome (hh : l.Housed) (out : id ∉ l.admitted) :
    Housed { l with admitted := l.admitted ++ [id] } where
  listed hr hi :=
    have hl := hh.listed hr hi
    ⟨List.mem_append_left _ hl.1, hl.2⟩
  home ha hr hp := by
    rcases List.mem_append.1 ha with ha | ha
    · exact hh.home ha hr hp
    -- whoever was not admitted is in no room yet
    · rw [List.mem_singleton.1 ha] at hp
      have hn := hh.outside out
      rw [hp] at hn
      cases hn
  outside ha := hh.outside fun h => ha (List.mem_append_left _ h)
  orderly hr := hh.orderly hr

theorem get?_of_refused (hh : l.Housed) (hg : l.Grounded) {n : String}
    (hr : (l.settled name (l.roomAt name)).get? n = some room) : l.rooms.get? n = some room := by
  rw [get?_settled] at hr
  by_cases hn : n = name
  · subst hn
    rw [if_pos rfl, hh.roomAt_eq hg] at hr
    cases hold : l.rooms.get? n with
    | none =>
      have hempty : (Room.create n l.limits.roomMembers).members.any l.live = false := rfl
      rw [hold, Option.getD_none, hempty, if_neg Bool.false_ne_true] at hr
      cases hr
    | some old =>
      rw [hold, Option.getD_some] at hr
      split at hr
      · exact hr
      · cases hr
  · rwa [if_neg hn] at hr

theorem get?_refused (hh : l.Housed) (hg : l.Grounded) (name : String) {n : String}
    (hr : l.rooms.get? n = some room) (hi : id ∈ room.members) (hrun : l.running id) :
    (l.settled name (l.roomAt name)).get? n = some room := by
  rw [get?_settled]
  by_cases hn : n = name
  · subst hn
    have hat : l.roomAt n = room := hh.roomAt_eq_of_get? hg hr
    have hlive : room.members.any l.live :=
      List.any_eq_true.2 ⟨id, hi, (hg.live_iff (hh.listed hr hi).1).2 hrun⟩
    rw [if_pos rfl, hat, if_pos hlive]
  · rw [if_neg hn, hr]

theorem refuse (hh : l.Housed) (hg : l.Grounded) (name : String) :
    Housed { l with rooms := l.settled name (l.roomAt name) } := by
  refine ⟨fun hr hi => hh.listed (hh.get?_of_refused hg hr) hi, ?_, hh.outside,
    fun hr => hh.orderly (hh.get?_of_refused hg hr)⟩
  intro i n ha hr hp
  obtain ⟨room, hroom, hi⟩ := hh.home ha hr hp
  exact ⟨room, hh.get?_refused hg name hroom hi hr, hi⟩

theorem seat (hh : l.Housed) (hid : id ∈ l.admitted) (nowhere : (l.profile id).room = none)
    (hmem : ∀ i, i ∈ room.members ↔
      i = id ∨ ∃ old, l.rooms.get? name = some old ∧ i ∈ old.members)
    (ho : room.Orderly l.limits name) : (l.seat id name room).Housed := by
  have hself : ((l.seat id name room).profile id).room = some name := room_setRoom l id _
  have hother : ∀ {i}, i ≠ id → (l.seat id name room).profile i = l.profile i := fun hi =>
    profile_setRoom_of_ne l hi _
  have hrooms : ∀ n, (l.seat id name room).rooms.get? n =
      if n = name then some room else l.rooms.get? n := fun n => Registry.get?_insert ..
  have hadm : (l.seat id name room).admitted = l.admitted := rfl
  have hold : ∀ {n r i}, l.rooms.get? n = some r → i ∈ r.members →
      i ∈ l.admitted ∧ ((l.seat id name room).profile i).room = some n := by
    intro n r i hr hi
    have hne : i ≠ id := fun h => hh.not_listed nowhere hr (h ▸ hi)
    rw [hother hne]
    exact hh.listed hr hi
  refine ⟨?_, ?_, ?_, ?_⟩
  · intro n r i hr hi
    rw [hrooms] at hr
    by_cases hn : n = name
    · subst hn
      rw [if_pos rfl, Option.some.injEq] at hr
      subst hr
      rcases (hmem i).1 hi with rfl | ⟨old, hr, hi⟩
      · exact ⟨hid, hself⟩
      · exact hold hr hi
    · rw [if_neg hn] at hr
      exact hold hr hi
  · intro i n ha hrun hp
    rw [hrooms]
    by_cases hi : i = id
    · subst hi
      rw [hself, Option.some.injEq] at hp
      subst hp
      exact ⟨room, if_pos rfl, (hmem i).2 (.inl rfl)⟩
    · rw [hother hi] at hp
      obtain ⟨old, hr, hi⟩ := hh.home ha hrun hp
      by_cases hn : n = name
      · subst hn
        exact ⟨room, if_pos rfl, (hmem i).2 (.inr ⟨old, hr, hi⟩)⟩
      · exact ⟨old, by rw [if_neg hn, hr], hi⟩
  · intro i hi
    rw [hother fun h => hi (h ▸ hid)]
    exact hh.outside hi
  · intro n r hr
    rw [hrooms] at hr
    by_cases hn : n = name
    · subst hn
      rw [if_pos rfl, Option.some.injEq] at hr
      exact hr ▸ ho
    · rw [if_neg hn] at hr
      exact hh.orderly hr

theorem enter (hh : l.Housed) (hg : l.Grounded) (seeks : l.seeks id name)
    (space : (l.roomAt name).members.length < (l.roomAt name).limit) :
    (l.seat id name { l.roomAt name with members := (l.roomAt name).members ++ [id] }).Housed := by
  obtain ⟨heard, valid, nowhere⟩ := seeks
  have hid : id ∈ l.admitted := (knows_iff.1 (hears_iff.1 heard).2).1
  have hnew := hh.not_mem_roomAt hg nowhere name
  have hlength : ((l.roomAt name).members ++ [id]).length ≤ (l.roomAt name).limit := by
    rw [List.length_append]
    exact space
  have hnodup : (l.roomAt name).members.Nodup → ((l.roomAt name).members ++ [id]).Nodup := by
    intro hn
    rw [← List.concat_eq_append]
    exact hn.concat hnew
  rw [hh.roomAt_eq hg] at hlength hnodup ⊢
  apply hh.seat hid nowhere
  · intro i
    rw [List.mem_append, List.mem_singleton, or_comm]
    cases l.rooms.get? name with
    | none => simp [Room.create]
    | some room => simp
  · cases hr : l.rooms.get? name with
    | none =>
      rw [hr] at hlength
      exact ⟨rfl, valid, rfl, List.cons_ne_nil _ _, hlength, List.nodup_singleton id⟩
    | some room =>
      rw [hr] at hlength hnodup
      have ho := hh.orderly hr
      have hinhabited : room.members ++ [id] ≠ [] :=
        List.append_ne_nil_of_right_ne_nil _ (List.cons_ne_nil _ _)
      exact ⟨ho.named, valid, ho.limited, hinhabited, hlength, hnodup ho.nodup⟩

theorem left (hh : l.Housed) (hg : l.Grounded) {rest : Room}
    (hr : (l.roomsWithout id name).get? name = some rest) :
    ∃ room, l.rooms.get? name = some room ∧ rest = room.keep (· ≠ id) ∧ rest.members ≠ [] := by
  rw [get?_roomsWithout_self] at hr
  obtain ⟨room, hroom, hr⟩ := Option.bind_eq_some_iff.1 hr
  dsimp only at hr
  rw [hh.rest_eq hg hroom] at hr
  refine ⟨room, hroom, ?_⟩
  split at hr
  · cases hr
  · next hc =>
    cases hr
    refine ⟨rfl, fun hempty => ?_⟩
    -- an empty rest is dropped if the leaver was listed, and else the room was empty before
    by_cases hi : id ∈ room.members
    · refine hc ⟨hi, ?_⟩
      rw [hempty]
      exact Bool.false_ne_true
    · have hsame : room.keep (· ≠ id) = room := Room.keep_eq_self fun i hmem =>
        decide_eq_true fun h => hi (h ▸ hmem)
      rw [hsame] at hempty
      exact (hh.orderly hroom).inhabited hempty

theorem stays (hh : l.Housed) (hg : l.Grounded) (hroom : l.rooms.get? name = some room)
    {i : SessionId} (hi : i ∈ room.members) (hne : i ≠ id) (hrun : l.running i) :
    (l.roomsWithout id name).get? name = some (room.keep (· ≠ id)) := by
  have hrest : i ∈ (room.keep (· ≠ id)).members := Room.mem_keep.2 ⟨hi, decide_eq_true hne⟩
  have hlive : (room.keep (· ≠ id)).members.any l.live :=
    List.any_eq_true.2 ⟨i, hrest, (hg.live_iff (hh.listed hroom hi).1).2 hrun⟩
  rw [get?_roomsWithout_self, hroom, Option.bind_some]
  dsimp only
  rw [hh.rest_eq hg hroom, if_neg fun h => h.2 hlive]

theorem evict (hh : l.Housed) (hg : l.Grounded) (here : (l.profile id).room = some name) :
    (l.evict id name).Housed := by
  have hself : ((l.evict id name).profile id).room = none := room_setRoom l id none
  have hother : ∀ {i}, i ≠ id → (l.evict id name).profile i = l.profile i := fun hi =>
    profile_setRoom_of_ne l hi none
  have hrooms : (l.evict id name).rooms = l.roomsWithout id name := rfl
  -- the leaver is listed nowhere but in the room it leaves
  have hold : ∀ {n r i}, n ≠ name → l.rooms.get? n = some r → i ∈ r.members →
      i ∈ l.admitted ∧ ((l.evict id name).profile i).room = some n := by
    intro n r i hn hr hi
    have hl := hh.listed hr hi
    have hne : i ≠ id := by
      rintro rfl
      rw [here, Option.some.injEq] at hl
      exact hn hl.2.symm
    rw [hother hne]
    exact hl
  refine ⟨?_, ?_, ?_, ?_⟩
  · intro n r i hr hi
    rw [hrooms] at hr
    by_cases hn : n = name
    · subst hn
      obtain ⟨room, hroom, rfl, -⟩ := hh.left hg hr
      obtain ⟨hi, hne⟩ := Room.mem_keep.1 hi
      rw [hother (of_decide_eq_true hne)]
      exact hh.listed hroom hi
    · rw [get?_roomsWithout_of_ne l id hn] at hr
      exact hold hn hr hi
  · intro i n ha hrun hp
    rw [hrooms]
    have hne : i ≠ id := by
      rintro rfl
      rw [hself] at hp
      cases hp
    rw [hother hne] at hp
    obtain ⟨room, hroom, hi⟩ := hh.home ha hrun hp
    by_cases hn : n = name
    · subst hn
      exact ⟨_, hh.stays hg hroom hi hne hrun, Room.mem_keep.2 ⟨hi, decide_eq_true hne⟩⟩
    · exact ⟨room, by rw [get?_roomsWithout_of_ne l id hn, hroom], hi⟩
  · intro i hi
    by_cases hne : i = id
    · rw [hne, hself]
    · rw [hother hne]
      exact hh.outside hi
  · intro n r hr
    rw [hrooms] at hr
    by_cases hn : n = name
    · subst hn
      obtain ⟨room, hroom, rfl, hinhabited⟩ := hh.left hg hr
      exact (hh.orderly hroom).keep hinhabited
    · rw [get?_roomsWithout_of_ne l id hn] at hr
      exact hh.orderly hr

theorem dismiss (hh : l.Housed) (hn : (l.profile id).room = none)
    (nicknames : Registry String SessionId) (barrier : Option Barrier) :
    Housed { l with admitted := l.admitted.filter (· ≠ id), nicknames, barrier } where
  listed hr hi := by
    have hl := hh.listed hr hi
    refine ⟨List.mem_filter.2 ⟨hl.1, decide_eq_true ?_⟩, hl.2⟩
    rintro rfl
    exact hh.not_listed hn hr hi
  home ha hrun hp := hh.home (List.mem_filter.1 ha).1 hrun hp
  outside {i} hi := by
    by_cases ha : i ∈ l.admitted
    · have hid : i = id := by
        by_contra hne
        exact hi (List.mem_filter.2 ⟨ha, decide_eq_true hne⟩)
      rw [hid]
      exact hn
    · exact hh.outside ha
  orderly hr := hh.orderly hr

theorem depart (hh : l.Housed) (hg : l.Grounded) (id : SessionId) : (l.depart id).Housed := by
  unfold Ledger.depart
  cases hr : (l.profile id).room with
  | some name =>
    have hself : ((l.evict id name).profile id).room = none := room_setRoom l id none
    exact (hh.evict hg hr).dismiss hself _ _
  | none =>
    have hsame : { l.profile id with room := none } = l.profile id := by rw [← hr]
    rw [setRoom, hsame, Function.update_eq_self]
    exact hh.dismiss hr _ _

theorem step (hs : l.Step e k) (hg : l.Grounded) (hh : l.Housed) : k.Housed := by
  have hback : ∀ i ∈ l.admitted, k.running i → l.running i := fun i ha hr =>
    hs.running_before hg ha hr
  cases hs with
  | rest | create | stop | expire | halt => exact hh.of_same rfl rfl rfl (fun _ => rfl) hback
  | rename => exact hh.of_same rfl rfl rfl (room_rename l _ _) hback
  | welcome _ _ _ out => exact hh.welcome out
  | depart => exact hh.depart hg _
  -- nobody who seeks a room is listed anywhere, so that nobody is seated twice
  | reenter seeks listed => exact absurd listed (hh.not_mem_roomAt hg seeks.2.2 _)
  | refuse => exact hh.refuse hg _
  | enter seeks _ space => exact hh.enter hg seeks space
  | exit _ here => exact hh.evict hg here

end Housed

theorem housed_start (limits : Limits) (archive : Option Archive) (stamp : String) :
    (Hub.start limits archive stamp).ledger.Housed where
  listed hr := nomatch hr
  home ha := nomatch ha
  outside _ := rfl
  orderly hr := nomatch hr

end Ledger

namespace Hub

variable {limits : Limits} {h : Hub}

theorem Reachable.housed (hr : h.Reachable limits) : h.ledger.Housed := by
  have hboth := hr.ledger_induction (P := fun l => l.Grounded ∧ l.Housed)
    (fun _ _ => ⟨Ledger.grounded_start .., Ledger.housed_start ..⟩)
    fun hs h => ⟨h.1.step hs, h.2.step hs h.1⟩
  exact hboth.2

/-- The sessions know which rooms they are in, and the rooms who is in them. -/
structure RoomsAgree (limits : Limits) (h : Hub) : Prop where
  listed : ∀ {name room id}, h.rooms.get? name = some room → id ∈ room.members →
    ∃ s, h.session id = .ok s ∧ s.profile.room = some name
  home : ∀ {id s name}, h.session id = .ok s → s.stopped = false → s.profile.room = some name →
    ∃ room, h.rooms.get? name = some room ∧ id ∈ room.members
  sound : ∀ {name room}, h.rooms.get? name = some room →
    room.members ≠ [] ∧ room.members.length ≤ limits.roomMembers ∧ room.members.Nodup ∧
      room.name = name ∧ Name.check .room limits.nameLength name = .ok ()
  apart : ∀ {id name other room room'}, h.rooms.get? name = some room → id ∈ room.members →
    h.rooms.get? other = some room' → id ∈ room'.members → name = other

theorem roomsAgree_of_housed (hg : h.ledger.Grounded) (hh : h.ledger.Housed) :
    RoomsAgree h.limits h where
  listed {name room id} hr hi := by
    obtain ⟨ha, hp⟩ := hh.listed hr hi
    obtain ⟨s, hs⟩ := exists_session_of_mem hg ha
    rw [profile_of_session hs] at hp
    exact ⟨s, hs, hp⟩
  home {id s name} hs hrun hp := by
    have ha : id ∈ h.ledger.admitted := (session_eq_ok_iff.1 hs).1
    refine hh.home ha ?_ (by rw [profile_of_session hs, hp])
    rw [running_of_session hs, hrun]
    rfl
  sound {name room} hr := by
    have ho := hh.orderly hr
    have hbound : room.members.length ≤ h.limits.roomMembers := ho.limited ▸ ho.bounded
    exact ⟨ho.inhabited, hbound, ho.nodup, ho.named, Name.check_eq_ok_iff.2 ho.valid⟩
  apart hr hi hr' hi' := by
    have hp := (hh.listed hr hi).2
    rw [(hh.listed hr' hi').2, Option.some.injEq] at hp
    exact hp.symm

/-- Rooms and sessions agree whatever happened so far. -/
theorem rooms_agree (hr : h.Reachable limits) : RoomsAgree limits h := by
  have hagree := roomsAgree_of_housed hr.grounded hr.housed
  rwa [hr.limits_eq] at hagree

def departure : List Event :=
  [.create "a" .line 8, .create "b" .line 8, .request (.join 0), .request (.join 1),
    .request (.joinRoom 0 "r"), .request (.joinRoom 1 "r"), .act 0 .stop, .request (.leave 0),
    .expire 0]

theorem rooms_agree_departure :
    (start .standard none "").feasible departure ∧
      ((start .standard none "").run departure).rooms.get? "r" = some ⟨"r", 100, [1]⟩ ∧
        RoomsAgree .standard ((start .standard none "").run departure) :=
  ⟨by decide, by decide +kernel, rooms_agree ⟨none, "", departure, by decide, rfl⟩⟩

end Hub
end ChatRelay

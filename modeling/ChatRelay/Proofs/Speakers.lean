import ChatRelay.Proofs.Departure
import ChatRelay.Proofs.Logs

/-! Who speaks in a room. Chat goes where its sender believes to be, and whoever runs is listed
there. A session that has stopped speaks as well until it leaves; it is listed unless its room went
since it entered, and what stands under the name now was opened again without it. -/

namespace ChatRelay
namespace Ledger

variable {l k : Ledger} {e : Hub.Event} {id : SessionId} {name : String}

/-- All that a step can do to the room that stands under a name. -/
inductive RoomStep (l k : Ledger) (name : String) : Prop
  | same (h : k.rooms.get? name = l.rooms.get? name)
  | closed (h : k.rooms.get? name = none)
  | left {room : Room} {i : SessionId} (stood : l.rooms.get? name = some room)
      (out : (k.profile i).room = none) (h : k.rooms.get? name = some (room.keep (· ≠ i)))
  | entered {room : Room} {i : SessionId} (free : (l.profile i).room = none)
      (h : k.rooms.get? name = some room) (listed : i ∈ room.members)
      (others : ∀ j, j ≠ i →
        (j ∈ room.members ↔ ∃ old, l.rooms.get? name = some old ∧ j ∈ old.members))

theorem Housed.roomStep_refuse (hh : l.Housed) (hg : l.Grounded) (n name : String) :
    l.RoomStep { l with rooms := l.settled n (l.roomAt n) } name := by
  cases hr : (l.settled n (l.roomAt n)).get? name with
  | none => exact .closed hr
  | some room => exact .same (hr.trans (hh.get?_of_refused hg hr).symm)

theorem Housed.roomStep_enter (hh : l.Housed) (hg : l.Grounded) {i : SessionId} {n : String}
    (free : (l.profile i).room = none) (name : String) :
    l.RoomStep (l.seat i n { l.roomAt n with members := (l.roomAt n).members ++ [i] }) name := by
  have hrooms : (l.seat i n { l.roomAt n with members := (l.roomAt n).members ++ [i] }).rooms =
      l.rooms.insert n { l.roomAt n with members := (l.roomAt n).members ++ [i] } := rfl
  by_cases hn : name = n
  · subst hn
    have hget := Registry.get?_insert l.rooms name
      { l.roomAt name with members := (l.roomAt name).members ++ [i] } name
    rw [if_pos rfl] at hget
    refine .entered free (hrooms ▸ hget) (List.mem_append_right _ (List.mem_singleton_self i)) ?_
    intro j hj
    rw [List.mem_append, List.mem_singleton, or_iff_left hj, hh.roomAt_eq hg]
    cases l.rooms.get? name with
    | none => simp [Room.create]
    | some room => simp
  · refine .same ?_
    rw [hrooms, Registry.get?_insert, if_neg hn]

theorem Housed.roomStep_exit (hh : l.Housed) (hg : l.Grounded) (i : SessionId) (n name : String) :
    l.RoomStep (l.evict i n) name := by
  have hrooms : (l.evict i n).rooms = l.roomsWithout i n := rfl
  by_cases hn : name = n
  · subst hn
    have hout : ((l.evict i name).profile i).room = none := room_setRoom l i none
    cases hr : (l.roomsWithout i name).get? name with
    | none => exact .closed hr
    | some rest =>
      obtain ⟨room, hroom, rfl, -⟩ := hh.left hg hr
      exact .left hroom hout hr
  · refine .same ?_
    rw [hrooms, get?_roomsWithout_of_ne l i hn]

theorem Housed.roomStep_depart (hh : l.Housed) (hg : l.Grounded) (i : SessionId) (name : String) :
    l.RoomStep (l.depart i) name := by
  have hout : ((l.depart i).profile i).room = none := room_setRoom l i none
  have hget := hh.get?_depart hg i name
  cases hr : l.rooms.get? name with
  | none => exact .closed (by rw [hget, hr, Option.bind_none])
  | some room =>
    rw [hr, Option.bind_some] at hget
    split at hget
    · exact .closed hget
    · exact .left hr hout hget

theorem Housed.roomStep (hs : l.Step e k) (hg : l.Grounded) (hh : l.Housed) (name : String) :
    l.RoomStep k name := by
  cases hs with
  | rest | create | stop | expire | welcome | rename | halt => exact .same rfl
  | depart => exact hh.roomStep_depart hg _ name
  | reenter seeks listed => exact absurd listed (hh.not_mem_roomAt hg seeks.2.2 _)
  | refuse => exact hh.roomStep_refuse hg _ name
  | enter seeks => exact hh.roomStep_enter hg seeks.2.2 name
  | exit => exact hh.roomStep_exit hg _ _ name

def Lists (l : Ledger) (name : String) (id : SessionId) : Prop :=
  ∃ room, l.rooms.get? name = some room ∧ id ∈ room.members

theorem RoomStep.lists_iff (hs : l.RoomStep k name) (hl : (l.profile id).room = some name)
    (hk : (k.profile id).room = some name) :
    k.Lists name id ↔ l.Lists name id ∧ k.rooms.get? name ≠ none := by
  unfold Lists
  cases hs with
  | same h =>
    rw [h]
    refine ⟨fun hlists => ⟨hlists, ?_⟩, fun hlists => hlists.1⟩
    obtain ⟨room, hroom, -⟩ := hlists
    rw [hroom]
    exact Option.some_ne_none room
  | closed h =>
    rw [h]
    constructor
    · rintro ⟨room, hroom, -⟩
      cases hroom
    · rintro ⟨-, hstands⟩
      exact absurd rfl hstands
  | @left room i stood out h =>
    have hne : id ≠ i := by
      rintro rfl
      rw [out] at hk
      cases hk
    rw [h, stood]
    simp [Room.mem_keep, hne]
  | @entered room i free h listed others =>
    have hne : id ≠ i := by
      rintro rfl
      rw [free] at hl
      cases hl
    rw [h, ← others id hne]
    simp

theorem Step.lists_of_new (hs : l.Step e k) (hl : (l.profile id).room ≠ some name)
    (hk : (k.profile id).room = some name) : k.Lists name id := by
  rcases hs.room_cases id with hsame | ⟨-, hnone⟩ | ⟨n, room, -, -, hlisted, rfl⟩
  · exact absurd (hsame.symm.trans hk) hl
  · rw [hnone] at hk
    cases hk
  · have hn : n = name := Option.some.inj ((room_setRoom l id (some n)).symm.trans hk)
    subst hn
    have hget : (l.seat id n room).rooms.get? n = some room :=
      (Registry.get?_insert ..).trans (if_pos rfl)
    exact ⟨room, hget, hlisted⟩

end Ledger

namespace Hub

variable {origin h : Hub} {es : List Event} {e : Event} {id : SessionId} {name : String}

def Believes (h : Hub) (name : String) (id : SessionId) : Prop :=
  (h.ledger.profile id).room = some name

/-- The room of this name went while it listed a session, which believes to be there ever since. -/
def Strayed (origin : Hub) (es : List Event) (id : SessionId) (name : String) : Prop :=
  ∃ before e after, es = before ++ e :: after ∧ (origin.run before).Lists name id ∧
    (origin.run (before ++ [e])).rooms.get? name = none ∧
      ∀ p, p <+: after → (origin.run (before ++ e :: p)).Believes name id

theorem Strayed.believes (hs : origin.Strayed es id name) : (origin.run es).Believes name id := by
  obtain ⟨before, e, after, rfl, -, -, hall⟩ := hs
  exact hall after (List.prefix_refl after)

theorem strayed_concat : origin.Strayed (es ++ [e]) id name ↔
    (origin.run (es ++ [e])).Believes name id ∧ (origin.Strayed es id name ∨
      (origin.run es).Lists name id ∧ (origin.run (es ++ [e])).rooms.get? name = none) := by
  constructor
  · intro hs
    refine ⟨hs.believes, ?_⟩
    obtain ⟨before, d, after, heq, hlists, hgone, hall⟩ := hs
    rcases List.eq_nil_or_concat after with rfl | ⟨front, last, rfl⟩
    · obtain ⟨hes, hd⟩ := List.append_inj' heq rfl
      cases hd
      subst hes
      exact .inr ⟨hlists, hgone⟩
    · rw [List.concat_eq_append, ← List.cons_append, ← List.append_assoc] at heq
      rw [List.concat_eq_append] at hall
      obtain ⟨rfl, -⟩ := List.append_inj' heq rfl
      exact .inl ⟨before, d, front, rfl, hlists, hgone,
        fun p hp => hall p (hp.trans (List.prefix_append front _))⟩
  · rintro ⟨hbelieves, ⟨before, d, after, rfl, hlists, hgone, hall⟩ | ⟨hlists, hgone⟩⟩
    · refine ⟨before, d, after ++ [e], ?_, hlists, hgone, fun p hp => ?_⟩
      · rw [List.append_assoc, List.cons_append]
      · rcases List.prefix_concat_iff.1 hp with rfl | hp
        · rwa [List.append_assoc, List.cons_append] at hbelieves
        · exact hall p hp
    · refine ⟨es, e, [], rfl, hlists, hgone, fun p hp => ?_⟩
      rwa [List.prefix_nil.1 hp]

theorem lists_iff_not_strayed {limits : Limits} {archive : Option Archive} {stamp : String}
    (hf : (start limits archive stamp).feasible es)
    (hb : ((start limits archive stamp).run es).Believes name id) :
    ((start limits archive stamp).run es).Lists name id ↔
      ¬ (start limits archive stamp).Strayed es id name := by
  revert id name
  refine prefix_induction (P := fun p => ∀ {id name},
    ((start limits archive stamp).run p).Believes name id →
      (((start limits archive stamp).run p).Lists name id ↔
        ¬ (start limits archive stamp).Strayed p id name)) hf ?_ ?_ es (List.prefix_refl es)
  -- at first nobody believes to be anywhere
  · intro id name hb
    exact absurd hb (Option.some_ne_none name).symm
  · intro p e hp ha ih id name hb
    have hr := reachable_run (feasible_before hf ((List.prefix_append p [e]).trans hp))
    have hstep := ledger_step ha
    rw [strayed_concat, and_iff_right hb]
    rw [run_concat] at hb ⊢
    by_cases hbefore : ((start limits archive stamp).run p).Believes name id
    · have hroom := (hr.housed.roomStep hstep hr.grounded name).lists_iff hbefore hb
      have hlists : (((start limits archive stamp).run p).step e).Lists name id ↔
          ((start limits archive stamp).run p).Lists name id ∧
            (((start limits archive stamp).run p).step e).rooms.get? name ≠ none := hroom
      have hold := ih hbefore
      tauto
    · have hlists : (((start limits archive stamp).run p).step e).Lists name id :=
        hstep.lists_of_new hbefore hb
      have hnot : ¬ (start limits archive stamp).Strayed p id name := fun hs =>
        hbefore hs.believes
      have hout : ¬ ((start limits archive stamp).run p).Lists name id := fun hl => by
        obtain ⟨room, hroom, hi⟩ := hl
        exact hbefore (hr.housed.listed hroom hi).2
      tauto

/-! ### Chat -/

theorem mem_news {request : Request} {m : Message} {i : SessionId}
    (hm : m ∈ h.queued request i) : ∃ n ∈ h.notices request, n.message = m := by
  rw [queued] at hm
  cases hs : h.pool.get? i with
  | none =>
    rw [hs] at hm
    cases hm
  | some s =>
    rw [hs, Option.elim_some] at hm
    obtain ⟨n, hn, hmessage⟩ := List.mem_filterMap.1 (Session.kept_subset _ _ hm)
    split at hmessage
    · exact ⟨n, hn, Option.some.inj hmessage⟩
    · cases hmessage

theorem of_roomChat_mem {body sender text : String} {i : SessionId}
    (hm : .roomChat sender name text ∈ h.queued (.chat id body) i) :
    h.ledger.hears id ∧ h.Believes name id ∧ ∃ room, h.rooms.get? name = some room := by
  obtain ⟨n, hn, hmessage⟩ := mem_news hm
  rw [notices] at hn
  split at hn
  · next hears =>
    refine ⟨hears, ?_⟩
    unfold chatter at hn
    cases hp : (h.ledger.profile id).room with
    | none =>
      rw [hp] at hn
      rw [List.mem_singleton.1 hn] at hmessage
      cases hmessage
    | some here =>
      rw [hp] at hn
      obtain ⟨room, hroom, rfl⟩ := Option.map_eq_some_iff.1 (Option.mem_toList.1 hn)
      cases hmessage
      exact ⟨hp, room, hroom⟩
  · cases hn

theorem of_written_room {body line : String}
    (hw : h.written? (.chat id body) = some (.room name, line)) :
    h.ledger.hears id ∧ ∃ here, LogFile.Alike here name ∧ h.Believes here id ∧
      ∃ room, h.rooms.get? here = some room := by
  rw [written?] at hw
  split at hw
  · next hears =>
    refine ⟨hears, ?_⟩
    cases hp : (h.ledger.profile id).room with
    | none =>
      rw [hp] at hw
      cases hw
    | some here =>
      rw [hp] at hw
      obtain ⟨room, hroom, heq⟩ := Option.map_eq_some_iff.1 hw
      have hfile : (Conversation.room here).file = (Conversation.room name).file :=
        congrArg Prod.fst heq
      exact ⟨here, Conversation.file_eq_iff.1 hfile, hp, room, hroom⟩
  · cases hw

structure Speaker (origin : Hub) (es : List Event) (id : SessionId) (name : String) : Prop where
  admitted : ∃ s, (origin.run es).session id = .ok s ∧ s.profile.room = some name ∧
    (s.stopped = false → (origin.run es).Lists name id)
  stands : ∃ room, (origin.run es).rooms.get? name = some room
  listed : (origin.run es).Lists name id ↔ ¬ origin.Strayed es id name

theorem speaker_of {limits : Limits} {archive : Option Archive} {stamp : String}
    (hf : (start limits archive stamp).feasible es)
    (hears : ((start limits archive stamp).run es).ledger.hears id)
    (hb : ((start limits archive stamp).run es).Believes name id)
    (stands : ∃ room, ((start limits archive stamp).run es).rooms.get? name = some room) :
    Speaker (start limits archive stamp) es id name := by
  refine ⟨?_, stands, lists_iff_not_strayed hf hb⟩
  obtain ⟨s, hs⟩ := exists_requester_iff.2 hears
  have hsession := (requester_eq_ok_iff.1 hs).2
  refine ⟨s, hsession, ?_, fun hrun => ?_⟩
  · rw [← profile_of_requester hs]
    exact hb
  · have hrunning := running_of_session hsession
    rw [hrun] at hrunning
    exact (reachable_run hf).housed.home (session_eq_ok_iff.1 hsession).1 hrunning hb

/-- Who speaks in a room, to its members or in its log, is listed there, unless it stopped and
strayed. -/
theorem speaker_of_chat {limits : Limits} {archive : Option Archive} {stamp : String}
    (hf : (start limits archive stamp).feasible es) (id : SessionId) (body : String) :
    (∀ {i sender name text},
      .roomChat sender name text ∈ ((start limits archive stamp).run es).queued (.chat id body) i →
        Speaker (start limits archive stamp) es id name) ∧
    (∀ {name line},
      ((start limits archive stamp).run es).written? (.chat id body) = some (.room name, line) →
        ∃ here, LogFile.Alike here name ∧ Speaker (start limits archive stamp) es id here) := by
  constructor
  · intro i sender name text hm
    obtain ⟨hears, hb, stands⟩ := of_roomChat_mem hm
    exact speaker_of hf hears hb stands
  · intro name line hw
    obtain ⟨hears, here, halike, hb, stands⟩ := of_written_room hw
    exact ⟨here, halike, speaker_of hf hears hb stands⟩

def reopening : List Event :=
  [.create "a" .line 16, .create "b" .line 16, .create "c" .line 16, .request (.join 0),
    .request (.join 1), .request (.join 2), .request (.joinRoom 0 "r"), .request (.joinRoom 1 "r"),
    .act 0 .stop, .request (.leaveRoom 1 "r"), .request (.joinRoom 2 "r")]

theorem speaker_of_chat_reopening :
    (start .standard (some .empty) "").feasible reopening ∧
      .roomChat "a" "r" "hi" ∈
        ((start .standard (some .empty) "").run reopening).queued (.chat 0 "hi") 2 ∧
      ((start .standard (some .empty) "").run reopening).written? (.chat 0 "hi") =
        some (.room "r", " [a]: hi") ∧
      ((start .standard (some .empty) "").run reopening).rooms.get? "r" = some ⟨"r", 100, [2]⟩ ∧
      (start .standard (some .empty) "").Strayed reopening 0 "r" ∧
      Speaker (start .standard (some .empty) "") reopening 0 "r" ∧
      ∃ here, LogFile.Alike here "r" ∧
        Speaker (start .standard (some .empty) "") reopening 0 here := by
  have hf : (start .standard (some .empty) "").feasible reopening := by decide
  have hheard : .roomChat "a" "r" "hi" ∈
      ((start .standard (some .empty) "").run reopening).queued (.chat 0 "hi") 2 := by
    decide +kernel
  have hlogged : ((start .standard (some .empty) "").run reopening).written? (.chat 0 "hi") =
      some (.room "r", " [a]: hi") := by decide +kernel
  have hroom : ((start .standard (some .empty) "").run reopening).rooms.get? "r" =
      some ⟨"r", 100, [2]⟩ := by decide +kernel
  have hspeaker := (speaker_of_chat hf 0 "hi").1 hheard
  refine ⟨hf, hheard, hlogged, hroom, ?_, hspeaker, (speaker_of_chat hf 0 "hi").2 hlogged⟩
  by_contra hnot
  obtain ⟨room, hget, hmem⟩ := hspeaker.listed.2 hnot
  rw [hroom] at hget
  cases hget
  exact absurd hmem (by decide)

end Hub
end ChatRelay

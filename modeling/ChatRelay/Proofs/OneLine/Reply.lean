import ChatRelay.Link
import ChatRelay.Proofs.OneLine.Lines
import ChatRelay.Proofs.OneLine.Plain
import ChatRelay.Proofs.Seats

/-! What a client is told in reply. A reply repeats names that passed their check or that belong to
sessions, words without blanks, and what was read from a log; only a private message that was sent
is repeated as it was typed. -/

namespace ChatRelay

/-! ### Faults -/

def Fault.Plain (fault : Fault) : Prop := ∀ name, fault.named? = some name → OneLine name

theorem Fault.plain_of_none {fault : Fault} (h : fault.named? = none) : fault.Plain :=
  fun _ hn => nomatch h.symm.trans hn

theorem Fault.plain_of_some {fault : Fault} {name : String} (h : fault.named? = some name)
    (hname : OneLine name) : fault.Plain := by
  intro n hn
  cases h.symm.trans hn
  exact hname

theorem Name.plain_of_check {kind : Kind} {limit : Nat} {name : String} {fault : Fault}
    (h : check kind limit name = .error fault) : fault.Plain := by
  unfold check at h
  split at h
  · next flaw hflaw =>
    cases h
    cases flaw with
    | reserved =>
      have hr : name ∈ reserved := by
        unfold flaw? at hflaw
        grind
      simp only [reserved, List.mem_cons, List.not_mem_nil, or_false] at hr
      rcases hr with rfl | rfl <;> exact Fault.plain_of_some rfl (oneLine_ofList (by decide))
    | _ => exact Fault.plain_of_none rfl
  · cases h

namespace Hub

variable {limits : Limits} {h : Hub} {id : SessionId} {fault : Fault}

theorem plain_of_session (he : h.session id = .error fault) : fault.Plain := by
  unfold session at he
  repeat' split at he
  all_goals
    cases he
    try exact Fault.plain_of_none rfl

theorem plain_of_requester (he : h.requester id = .error fault) : fault.Plain := by
  unfold requester at he
  split at he
  · cases he
    exact Fault.plain_of_none rfl
  · exact plain_of_session he

theorem plain_of_register {nickname : String} (he : h.register id nickname = .error fault) :
    fault.Plain := by
  rcases of_bind_eq_error he with hq | ⟨s, hq, he⟩
  · exact plain_of_requester hq
  rcases of_bind_eq_error he with hc | ⟨_, hc, he⟩
  · exact Name.plain_of_check hc
  split at he
  · cases he
  · split at he
    · cases he
    · cases he
      exact Fault.plain_of_some rfl (oneLine_of_flaw? (Name.check_eq_ok_iff.1 hc))

theorem plain_of_roomSeeker (hp : h.Plain limits) {name : String}
    (he : h.roomSeeker id name = .error fault) : fault.Plain := by
  rcases of_bind_eq_error he with hq | ⟨s, hq, he⟩
  · exact plain_of_requester hq
  rcases of_bind_eq_error he with hc | ⟨_, hc, he⟩
  · exact Name.plain_of_check hc
  split at he
  · next current hroom =>
    cases he
    exact Fault.plain_of_some rfl ((hp.voiced (get?_of_requester hq)).room hroom)
  · cases he

theorem plain_of_joinRoom (hp : h.Plain limits) {name : String}
    (he : (h.joinRoom id name).1 = .error fault) : fault.Plain := by
  rcases joinRoom_eq_error_iff.1 (Prod.ext he rfl) with ⟨seek, -⟩ | ⟨⟨s, seek⟩, left, hadd, -⟩
  · exact plain_of_roomSeeker hp seek
  · have hflaw := (roomSeeker_eq_ok_iff.1 seek).2.1
    have hname := (roomFor_sound hp.reachable.housed name).1
    obtain ⟨-, -, rfl, -⟩ := Room.add_eq_error_iff.1 hadd
    rw [hname]
    exact Fault.plain_of_some rfl (oneLine_of_flaw? hflaw)

theorem plain_of_leaveRoom {name : String} (he : h.leaveRoom id name = .error fault) :
    fault.Plain := by
  rcases of_bind_eq_error he with hq | ⟨s, hq, he⟩
  · exact plain_of_requester hq
  split at he
  · cases he
  · cases he
    exact Fault.plain_of_none rfl

theorem plain_of_whisper {target body : String} (ht : OneLine target)
    (he : h.whisper id target body = .error fault) : fault.Plain := by
  rcases of_bind_eq_error he with hq | ⟨s, hq, he⟩
  · exact plain_of_requester hq
  split at he
  · cases he
    exact Fault.plain_of_some rfl ht
  · cases he

theorem plain_of_tail {a : Archive} {file : LogFile} {limit : Nat}
    (he : a.tail file limit = .error fault) : fault.Plain := by
  unfold Archive.tail at he
  repeat' split at he
  all_goals
    cases he
    try exact Fault.plain_of_none rfl

theorem plain_of_history {limit : Nat} (he : h.history id limit = .error fault) :
    fault.Plain := by
  unfold history at he
  split at he
  · cases he
    exact Fault.plain_of_none rfl
  · rcases of_bind_eq_error he with hs | ⟨s, hs, he⟩
    · exact plain_of_session hs
    rcases of_bind_eq_error he with ht | ⟨lines, ht, he⟩
    · exact plain_of_tail ht
    · cases he

theorem plain_of_join (he : h.join id = .error fault) : fault.Plain := by
  unfold join at he
  repeat' split at he
  all_goals
    cases he
    try exact Fault.plain_of_none rfl

theorem plain_of_handle (hp : h.Plain limits) {request : Request}
    (ht : ∀ {id target body}, request = .whisper id target body → OneLine target)
    (he : (h.handle request).1 = .error fault) : fault.Plain := by
  cases request with
  | join id => exact plain_of_join (of_attempt_eq_error he)
  | register id nickname => exact plain_of_register (of_attempt_eq_error he)
  | joinRoom id room => exact plain_of_joinRoom hp (of_map_eq_error he)
  | leaveRoom id room => exact plain_of_leaveRoom (of_attempt_eq_error he)
  | whisper id target body => exact plain_of_whisper (ht rfl) (of_attempt_eq_error he)
  | history id limit => exact plain_of_history (of_map_eq_error he)
  | leave | broadcast | broadcastIn | chat | users | status | shutDown => cases he

/-! ### Answers -/

theorem oneLine_of_mem_roster (hv : h.Voiced OneLine) {room : Room} {viewer : SessionId}
    {entry : String} (he : entry ∈ room.roster h.pool viewer) : OneLine entry := by
  obtain ⟨i, -, hi⟩ := List.mem_filterMap.1 he
  obtain ⟨s, hs, rfl⟩ := Option.map_eq_some_iff.1 hi
  have hname : OneLine s.displayName := (hv (Pool.live?_eq_some_iff.1 hs).1).displayName
  unfold Room.rosterEntry
  split
  · rw [oneLine_append]
    exact ⟨hname, oneLine_ofList (by decide)⟩
  · exact hname

theorem oneLine_of_mem_users (hv : h.Voiced OneLine) {viewer : SessionId} {entry : UserEntry}
    (he : entry ∈ h.users viewer) : OneLine entry.name := by
  unfold users at he
  obtain ⟨i, -, hi⟩ := List.mem_filterMap.1 (List.mem_mergeSort.1 he)
  obtain ⟨s, hs, rfl⟩ := Option.map_eq_some_iff.1 hi
  exact (hv hs).displayName

theorem of_joinRoom_eq_ok {name : String} {members : List String}
    (hj : (h.joinRoom id name).1 = .ok members) :
    Name.flaw? .room h.limits.nameLength name = none ∧
      ∃ room : Room, members = room.roster (h.joinRoom id name).2.pool id := by
  unfold joinRoom at hj ⊢
  split at hj
  · cases hj
  · next s seek =>
    refine ⟨(roomSeeker_eq_ok_iff.1 seek).2.1, ?_⟩
    dsimp only at hj ⊢
    split at hj
    · cases hj
    · next room hadd =>
      cases hj
      exact ⟨room, rfl⟩

theorem oneLine_of_history (hp : h.Plain limits) {limit : Nat} {scope : Option String}
    {lines : List String} (hh : h.history id limit = .ok (scope, lines)) :
    (∀ {name}, scope = some name → OneLine name) ∧ ∀ line ∈ lines, OneLine line := by
  obtain ⟨archive, s, -, hs, rfl, ht⟩ := history_eq_ok_iff.1 hh
  exact ⟨(hp.voiced (session_eq_ok_iff.1 hs).2).room, Archive.oneLine_of_tail ht⟩

end Hub

/-! ### Commands -/

namespace Message

theorem oneLine_help : ∀ m ∈ help, OneLine m.text := by
  intro m hm
  refine oneLine_text fun part hpart => ?_
  simp only [help, helpLines, List.map_cons, List.map_nil, List.cons_append, List.nil_append,
    List.mem_cons, List.not_mem_nil, or_false] at hm
  rcases hm with rfl | rfl | rfl | rfl | rfl | rfl | rfl | rfl | rfl <;>
    simp only [parts, List.mem_singleton, List.not_mem_nil] at hpart
  all_goals
    subst hpart
    exact oneLine_ofList (by decide)

end Message

namespace Command

variable {limits : Limits} {c : Command} {id : SessionId} {room : Option String}
  {request : Request} {k : Hub}

/-- A text for others that goes over a line feed, and that somebody may get to hear. -/
def Breaks (limits : Limits) : Command → Prop
  | chat body => ¬ OneLine body
  | pm target body =>
    Name.flaw? .nickname limits.nameLength target = none ∧ ¬ OneLine body
  | _ => False

theorem not_breaks_parse {text : String} (h : OneLine text) : ¬ (parse text).Breaks limits := by
  intro hb
  cases hparse : parse text with
  | chat body =>
    rw [hparse] at hb
    exact hb fun hm => h (said?_parse (by rw [hparse]; rfl) hm)
  | pm target body =>
    rw [hparse] at hb
    exact hb.2 fun hm => h (said?_parse (by rw [hparse]; rfl) hm)
  | _ =>
    rw [hparse] at hb
    exact hb

theorem oneLine_of_reply (hc : c.Tidy) (hroom : ∀ {name}, room = some name → OneLine name)
    {messages : List Message} (hp : c.plan id room = .reply messages) :
    ∀ m ∈ messages, OneLine m.text := by
  cases c with
  | join name =>
    rw [plan] at hp
    split at hp
    · next hr =>
      cases hp
      exact List.forall_mem_singleton.2 (Message.oneLine_of_part rfl (hroom hr))
    · cases hp
  | leave =>
    cases room with
    | none =>
      cases hp
      have hreply : OneLine Fault.notInRoom.reply := Fault.oneLine_reply (Fault.plain_of_none rfl)
      exact List.forall_mem_singleton.2 (Message.oneLine_of_part rfl hreply)
    | some name => cases hp
  | help =>
    cases hp
    exact Message.oneLine_help
  | usage u =>
    cases hp
    have hu : OneLine u.text := by cases u <;> exact oneLine_ofList (by decide)
    exact List.forall_mem_singleton.2 (Message.oneLine_of_part rfl hu)
  | unknown word =>
    cases hp
    exact List.forall_mem_singleton.2 (Message.oneLine_of_part rfl (hc.word rfl))
  | empty =>
    cases hp
    exact fun _ hm => absurd hm List.not_mem_nil
  | nick | users | quit | pm | history | chat => cases hp

theorem request_of_join {name : String} (hp : (join name).plan id room = .submit request) :
    request = .joinRoom id name := by
  rw [plan] at hp
  split at hp
  · cases hp
  · exact (Plan.submit.inj hp).symm

theorem request_of_leave (hp : leave.plan id room = .submit request) :
    ∃ name, room = some name ∧ request = .leaveRoom id name := by
  cases room with
  | none => cases hp
  | some name => exact ⟨name, rfl, (Plan.submit.inj hp).symm⟩

theorem said?_of_plan (hp : c.plan id room = .submit request) : request.said? = c.said? := by
  cases c with
  | join name =>
    rw [request_of_join hp]
    rfl
  | leave =>
    obtain ⟨name, -, rfl⟩ := request_of_leave hp
    rfl
  | _ =>
    cases hp
    try rfl

theorem clean_of_plan (hk : k.Plain limits) (hb : ¬ c.Breaks limits)
    (hp : c.plan id room = .submit request) : request.Clean OneLine k := by
  cases c with
  | chat body =>
    cases hp
    exact not_not.1 hb
  | pm target body =>
    cases hp
    intro hheld
    obtain ⟨holder, hholder⟩ := Option.isSome_iff_exists.1 hheld
    by_contra hbody
    exact hb ⟨Hub.flaw?_of_holder? hk.reachable hholder, hbody⟩
  | join name =>
    rw [request_of_join hp]
    trivial
  | leave =>
    obtain ⟨name, -, rfl⟩ := request_of_leave hp
    trivial
  | _ =>
    cases hp
    try trivial

theorem target_of_plan (hc : c.Tidy) {i : SessionId} {target body : String}
    (hp : c.plan id room = .submit (.whisper i target body)) : OneLine target := by
  cases c with
  | pm name said =>
    cases hp
    exact hc.target rfl
  | join name => cases request_of_join hp
  | leave =>
    obtain ⟨name, -, hr⟩ := request_of_leave hp
    cases hr
  | _ => cases hp

theorem oneLine_of_joined (hk : k.Plain limits) {name : String} {answer : Answer}
    (ha : (k.handle (.joinRoom id name)).1 = .ok answer) :
    ∀ m ∈ (join name).replies room (.ok answer), OneLine m.text := by
  obtain ⟨members, hj, rfl⟩ := Hub.of_map_eq_ok ha
  obtain ⟨hflaw, room, rfl⟩ := Hub.of_joinRoom_eq_ok hj
  -- the roster is read off the hub as it is afterwards
  have hv := (hk.step (e := .request (.joinRoom id name)) trivial rfl).voiced
  have hjoined : OneLine (Message.roomJoined name).text :=
    Message.oneLine_of_part rfl (oneLine_of_flaw? hflaw)
  have hroster : OneLine (Message.roomRoster (room.roster (k.joinRoom id name).2.pool id)).text :=
    Message.oneLine_text fun _ hm => Hub.oneLine_of_mem_roster hv hm
  exact List.forall_mem_cons.2 ⟨hjoined, List.forall_mem_singleton.2 hroster⟩

theorem oneLine_of_listed (hk : k.Plain limits) {answer : Answer}
    (ha : (k.handle (.users id)).1 = .ok answer) :
    ∀ m ∈ users.replies room (.ok answer), OneLine m.text := by
  cases ha
  refine List.forall_mem_cons.2 ⟨?_, fun m hm => ?_⟩
  · exact Message.oneLine_text fun _ h => absurd h List.not_mem_nil
  · obtain ⟨entry, he, rfl⟩ := List.mem_map.1 hm
    exact Message.oneLine_of_part rfl (Hub.oneLine_of_mem_users hk.voiced he)

theorem oneLine_of_whispered (hk : k.Plain limits) {target body : String} {answer : Answer}
    (hb : ¬ (pm target body).Breaks limits)
    (ha : (k.handle (.whisper id target body)).1 = .ok answer) :
    ∀ m ∈ (pm target body).replies room (.ok answer), OneLine m.text := by
  obtain ⟨l, hl⟩ := Hub.of_attempt_eq_ok ha
  obtain ⟨s, receiver, -, hheld, -⟩ := Hub.of_whisper_eq_ok hl
  have hflaw := Hub.flaw?_of_holder? hk.reachable hheld
  have hbody : OneLine body := by
    by_contra hbody
    exact hb ⟨hflaw, hbody⟩
  refine List.forall_mem_singleton.2 (Message.oneLine_text ?_)
  exact List.forall_mem_cons.2 ⟨oneLine_of_flaw? hflaw, List.forall_mem_singleton.2 hbody⟩

theorem oneLine_of_recalled (hk : k.Plain limits) {limit : Nat} {answer : Answer}
    (ha : (k.handle (.history id limit)).1 = .ok answer) :
    ∀ m ∈ (history limit).replies room (.ok answer), OneLine m.text := by
  obtain ⟨⟨scope, lines⟩, hh, rfl⟩ := Hub.of_map_eq_ok ha
  obtain ⟨hscope, hlines⟩ := Hub.oneLine_of_history hk hh
  refine List.forall_mem_cons.2 ⟨?_, fun m hm => ?_⟩
  · exact Message.oneLine_of_part rfl (Message.oneLine_scopeText hscope)
  · obtain ⟨line, hl, rfl⟩ := List.mem_map.1 hm
    exact Message.oneLine_of_part rfl (hlines line hl)

theorem oneLine_replies (hk : k.Plain limits) (hroom : ∀ {name}, room = some name → OneLine name)
    (hc : c.Tidy) (hb : ¬ c.Breaks limits) (hp : c.plan id room = .submit request) :
    ∀ m ∈ c.replies room (k.handle request).1, OneLine m.text := by
  cases ha : (k.handle request).1 with
  | error fault =>
    have hreply := Fault.oneLine_reply
      (Hub.plain_of_handle hk (fun hr => target_of_plan hc (hr ▸ hp)) ha)
    have hone : ∀ m ∈ [Message.ofFault fault], OneLine m.text :=
      List.forall_mem_singleton.2 (Message.oneLine_of_part rfl hreply)
    cases c <;> exact hone
  | ok answer =>
    cases c with
    | nick name =>
      cases hp
      obtain ⟨l, hl⟩ := Hub.of_attempt_eq_ok ha
      have hname := oneLine_of_flaw? (Hub.of_register_eq_ok hl).1
      exact List.forall_mem_singleton.2 (Message.oneLine_of_part rfl hname)
    | join name =>
      cases request_of_join hp
      exact oneLine_of_joined hk ha
    | leave =>
      obtain ⟨name, rfl, -⟩ := request_of_leave hp
      exact List.forall_mem_singleton.2 (Message.oneLine_of_part rfl (hroom rfl))
    | users =>
      cases hp
      exact oneLine_of_listed hk ha
    | pm target body =>
      cases hp
      exact oneLine_of_whispered hk hb ha
    | history limit =>
      cases hp
      exact oneLine_of_recalled hk ha
    | chat body =>
      cases hp
      exact fun _ hm => absurd hm List.not_mem_nil
    | help | quit | usage | unknown | empty => cases hp

end Command

end ChatRelay

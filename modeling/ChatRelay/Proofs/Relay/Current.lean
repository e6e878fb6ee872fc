import ChatRelay.Proofs.Relay.Whereabouts

/-! Checks that a driver makes on its own hold when the hub gets to know of them. A driver turns
away who asks for the room it is in, and who leaves while in no room; whatever else happens between
that and the hub's turn, the session is still where the driver saw it. -/

namespace ChatRelay

theorem Errand.Planned.plan_eq {id : SessionId} {e : Errand} (hp : e.Planned id) :
    e.command.plan id e.room = .submit e.request := by
  unfold Planned Command.request? at hp
  split at hp
  · next request hplan =>
    cases hp
    exact hplan
  · cases hp

namespace Traffic

/-- Nothing that was read about the room of a driven session is out of date. -/
structure Current (t : Traffic) : Prop where
  matched : t.Matched
  posting : ∀ {i : Nat} {c : Connection} {e : Errand}, t.relay.connections[i]? = some c →
    c.link.reader = .posting e → ∃ s, t.relay.hub.session c.link.session = .ok s ∧
      e.room = s.profile.room ∧ e.command.plan c.link.session s.profile.room = .submit e.request
  letter : ∀ {i : Nat} {e : Errand}, .errand i e ∈ t.letters → e.request.answered →
    ∃ c s, t.relay.connections[i]? = some c ∧ t.relay.hub.session c.link.session = .ok s ∧
      e.room = s.profile.room ∧ e.command.plan c.link.session s.profile.room = .submit e.request
  leaving : ∀ {i : Nat} {id : SessionId} {name : String},
    (i, .leaveRoom id name) ∈ t.relay.mailbox →
      ∃ s, t.relay.hub.session id = .ok s ∧ s.profile.room = some name ∧
        ((t.relay.hub.handle (.leaveRoom id name)).1 = .ok .done ∨
          (t.relay.hub.handle (.leaveRoom id name)).1 = .error .shuttingDown)
  entering : ∀ {i : Nat} {id : SessionId} {name : String},
    (i, .joinRoom id name) ∈ t.relay.mailbox →
      ∃ s, t.relay.hub.session id = .ok s ∧ s.profile.room ≠ some name
  told : ∀ {i : Nat} {c : Connection} {e : Errand} {a : Except Fault Answer},
    t.relay.connections[i]? = some c → c.link.reader = .waiting e → e.command = .leave →
      c.answer = some a → ∃ name, e.room = some name ∧
        (e.command.replies e.room a = [.roomLeft name] ∨
          e.command.replies e.room a = [.ofFault .shuttingDown])

variable {t : Traffic} {i : Nat} {e : Errand} {id : SessionId} {name : String}

theorem session_of_letter (ht : t.post.Tidy) (hm : .errand i e ∈ t.letters)
    (ha : e.request.answered) : ∃ c s, t.relay.connections[i]? = some c ∧
      t.relay.hub.session c.link.session = .ok s ∧ e.Planned c.link.session ∧
        e.room = s.profile.room := by
  obtain ⟨c, hc, hadm, planned, room⟩ := ht.fresh _ hm
  obtain ⟨s, hs⟩ := Hub.exists_session_of_mem ht.grounded hadm
  have hprofile := Hub.profile_of_session hs
  exact ⟨c, s, hc, hs, planned, (room ha).trans (congrArg Profile.room hprofile)⟩

theorem errand_of_posted (ht : t.post.Tidy) (hm : t.Matched) {request : Request}
    (hr : (i, request) ∈ t.relay.mailbox) (hmoves : request.moves? = some id)
    (hstays : request ≠ .leave id) : ∃ (e : Errand) (s : Session), e.request = request ∧
      e.Planned id ∧ t.relay.hub.session id = .ok s ∧ e.room = s.profile.room := by
  rw [hm] at hr
  obtain ⟨m, hm, hposted⟩ := List.mem_map.1 hr
  cases m with
  | errand j e =>
    cases hposted
    obtain ⟨c, s, -, hs, planned, room⟩ :=
      session_of_letter ht hm (Request.answered_of_moves? hmoves)
    obtain rfl := planned.moves hmoves
    exact ⟨e, s, rfl, planned, hs, room⟩
  | farewell j other =>
    cases hposted
    cases hmoves
    exact absurd rfl hstays

theorem current_of_tidy (hm : t.Matched) (ht : t.post.Tidy) : t.Current where
  matched := hm
  posting {i c e} hc hp := by
    have htended := ht.tended hc
    obtain ⟨planned, room⟩ := htended.posting hp
    have hr : c.link.reader ≠ .done := by simp [hp]
    obtain ⟨s, hs⟩ := Hub.exists_session_of_mem ht.grounded (htended.admitted (htended.going hr))
    have hroom : e.room = s.profile.room :=
      room.trans (congrArg Profile.room (Hub.profile_of_session hs))
    exact ⟨s, hs, hroom, hroom ▸ planned.plan_eq⟩
  letter hm ha := by
    obtain ⟨c, s, hc, hs, planned, room⟩ := session_of_letter ht hm ha
    exact ⟨c, s, hc, hs, room, room ▸ planned.plan_eq⟩
  leaving hr := by
    obtain ⟨e, s, he, planned, hs, room⟩ := errand_of_posted ht hm hr rfl (by simp)
    rw [planned.room_of_leaveRoom he] at room
    exact ⟨s, hs, room.symm, Hub.answer_leaveRoom hs room.symm⟩
  entering hr := by
    obtain ⟨e, s, he, planned, hs, room⟩ := errand_of_posted ht hm hr rfl (by simp)
    exact ⟨s, hs, room ▸ planned.room_of_joinRoom he⟩
  told {i c e a} hc hw hl ha := by
    have htended := ht.tended hc
    obtain ⟨name, room, -⟩ := (htended.waiting hw).1.leaves hl
    refine ⟨name, room, ?_⟩
    rw [hl, room]
    rcases htended.parted hw hl ha with rfl | rfl
    · exact .inl rfl
    · exact .inr rfl

theorem tidy_start (limits : Limits) (archive : Option Archive) (stamp : String) :
    (start limits archive stamp).post.Tidy where
  grounded := Ledger.grounded_start limits archive stamp
  apart := List.nodup_nil
  tended hc := nomatch hc
  fresh _ hm := nomatch hm
  ordered := List.Pairwise.nil
  read _ hl := nomatch hl

/-- Whatever drivers, hub, clients and everybody else do, in whatever order, no driver ever acts on
a room that its session is no longer in. -/
theorem current_of_run {limits : Limits} {archive : Option Archive} {stamp : String}
    {ms : List Moment} (hr : (start limits archive stamp).run ms = some t) : t.Current := by
  obtain ⟨hm, ht⟩ := run_induction (fun hs ht => Post.Tidy.step ht hs) hr rfl
    (tidy_start limits archive stamp)
  exact current_of_tidy hm ht

def crossing : List Moment :=
  [.outside (.create "a" .line 8), .outside (.create "b" .line 8), .outside (.request (.join 0)),
    .outside (.request (.join 1)), .drive 0 (.messages false), .drive 1 (.messages false),
    .client 0 (·.send (.unit (.text "/join r"))), .act 0 .read, .act 0 .read, .serve, .act 0 .read,
    .client 0 (·.send (.unit (.text "/leave"))), .act 0 .read, .act 0 .read,
    .client 1 (·.send (.unit (.text "/join r"))), .act 1 .read, .outside (.act 0 .stop),
    .act 0 .read, .act 1 .read]

theorem current_of_run_crossing : ∃ t, (start .standard none "").run crossing = some t ∧
    t.letters = [.errand 0 ⟨.leave, some "r", .leaveRoom 0 "r"⟩,
      .errand 1 ⟨.join "r", none, .joinRoom 1 "r"⟩] ∧ t.Current := by
  have hletters : ((start .standard none "").run crossing).map (·.letters) =
      some [.errand 0 ⟨.leave, some "r", .leaveRoom 0 "r"⟩,
        .errand 1 ⟨.join "r", none, .joinRoom 1 "r"⟩] := by decide +kernel
  obtain ⟨t, ht, hl⟩ := Option.map_eq_some_iff.1 hletters
  exact ⟨t, ht, hl, current_of_run ht⟩

end Traffic
end ChatRelay

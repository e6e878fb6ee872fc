import ChatRelay.Proofs.Departure
import ChatRelay.Proofs.Link.Step

/-! After the shutdown. What is asked too late is refused, who is still there can only leave, and
nobody who was there when it began is told anything more: what its queue still holds is all that it
will ever hold. -/

namespace ChatRelay

def Outgoing.text? : Outgoing → Option String
  | .text words => some words
  | .close => none

def Outbox.texts (box : Outbox) : List String := box.items.filterMap Outgoing.text?

namespace Session

variable {s t u : Session}

def Fades (s t : Session) : Prop := t.stopped ∧ t.outbox.texts <:+ s.outbox.texts

theorem fades_of_same (hs : t.stopped) (hq : t.outbox = s.outbox) : s.Fades t :=
  ⟨hs, hq ▸ List.suffix_rfl⟩

theorem Fades.trans (hst : s.Fades t) (htu : t.Fades u) : s.Fades u :=
  ⟨htu.1, htu.2.trans hst.2⟩

theorem tellAll_of_stopped (hs : s.stopped) (ms : List Message) : s.tellAll ms = s := by
  induction ms with
  | nil => rfl
  | cons m ms ih =>
    have hm : s.tell m = s := offer_of_stopped hs m.text
    rw [tellAll, List.foldl_cons, hm]
    exact ih

theorem fades_act (hs : s.stopped) (a : Act) : s.Fades (s.act a) := by
  cases a with
  | offer text =>
    rw [act, offer_of_stopped hs]
    exact fades_of_same hs rfl
  | take =>
    unfold act
    cases hb : s.outbox.take? with
    | none => exact fades_of_same hs rfl
    | some first =>
      obtain ⟨item, outbox⟩ := first
      refine ⟨hs, ?_⟩
      have hitems := (Outbox.take?_eq_some_iff.1 hb).1
      have htexts : s.outbox.texts = [item].filterMap Outgoing.text? ++ outbox.texts := by
        rw [Outbox.texts, hitems, Outbox.texts, ← List.filterMap_append]
        rfl
      exact htexts ▸ List.suffix_append _ _
  | closeAfterFlush =>
    rcases s.closeAfterFlush_cases with ⟨outbox, hp, hc⟩ | ⟨-, hc⟩
    · rw [act, hc]
      refine ⟨hs, ?_⟩
      obtain ⟨-, -, rfl⟩ := Outbox.push_eq_ok_iff.1 hp
      have htexts : Outbox.texts { s.outbox with items := s.outbox.items ++ [.close] } =
          s.outbox.texts := by
        unfold Outbox.texts
        rw [List.filterMap_append]
        exact List.append_nil _
      exact htexts ▸ List.suffix_rfl
    · rw [act, hc]
      exact fades_of_same rfl rfl
  | stop => exact fades_of_same rfl rfl
  | shut =>
    refine ⟨hs, ?_⟩
    have htexts : s.outbox.shut.texts = s.outbox.texts := by
      unfold Outbox.shut
      split <;> rfl
    exact htexts ▸ List.suffix_rfl
  | abandon => exact ⟨hs, List.nil_suffix⟩

end Session

namespace Link

theorem Step.eq_of_stopped {l l' : Link} {s s' : Session} {now : Nat} {e : Event}
    (hs : l.Step s now e l' s') (h : s.stopped) : s' = s := by
  have hnot : s.stopped = false → s' = s := fun running =>
    absurd (h.symm.trans running) Bool.noConfusion
  cases hs with
  | reply _ running | quit _ running | hangUp _ _ running | answer _ running
  | take _ running | mark _ running => exact hnot running
  | giveUp | fail | cease => exact Session.stop_of_stopped h
  | post | discard | skip | accept | halt | written | close | leave | left => rfl

end Link

namespace Ledger

variable {l k : Ledger} {e : Hub.Event}

theorem Step.stopped (hs : l.Step e k) (h : l.stopped) : k.stopped := by
  cases hs with
  | depart =>
    show (l.barrier.map _).isSome = true
    rw [Option.isSome_map]
    exact h
  | halt => rfl
  | rest | create | stop | expire | welcome | rename | reenter | refuse | enter | exit => exact h

def Halted (l : Ledger) : Prop := l.stopped → ∀ id ∈ l.admitted, l.running id = false

theorem Halted.step (hs : l.Step e k) (hg : l.Grounded) (hh : l.Halted) : k.Halted := by
  intro hk id hi
  rw [← Bool.not_eq_true]
  intro hrun
  have hstill : id ∈ l.admitted → l.running id := fun ha => hs.running_before hg ha hrun
  have hwas : l.stopped → id ∉ l.admitted := fun h ha =>
    absurd ((hh h id ha).symm.trans (hstill ha)) Bool.noConfusion
  -- only the shutdown can begin one, and it stops everybody who is admitted
  cases hs with
  | welcome going => exact absurd (hk.symm.trans going) Bool.noConfusion
  | depart =>
    have hl : (l.barrier.map (·.arrive)).isSome = true := hk
    rw [Option.isSome_map] at hl
    exact hwas hl (List.mem_filter.1 hi).1
  | halt =>
    have hout := ((Bool.and_eq_true _ _).mp hrun).2
    rw [Bool.not_eq_true', ← Bool.not_eq_true] at hout
    exact hout (List.contains_iff_mem.2 hi)
  | rest | create | stop | expire | rename | reenter | refuse | enter | exit => exact hwas hk hi

theorem running_handle (l : Ledger) (request : Request) {id : SessionId}
    (h : (l.handle request).running id) : l.running id := by
  cases request with
  | join i =>
    rw [handle, join] at h
    split at h <;> exact h
  | leave i =>
    rw [handle, leave] at h
    split at h <;> exact h
  | register i nickname =>
    rw [handle, register] at h
    split at h <;> exact h
  | joinRoom i name =>
    rw [handle, joinRoom] at h
    repeat' split at h
    all_goals exact h
  | leaveRoom i name =>
    rw [handle, leaveRoom] at h
    split at h <;> exact h
  | shutDown =>
    rw [handle, shutDown] at h
    split at h
    · exact h
    · exact ((Bool.and_eq_true _ _).mp h).1
  | broadcast | broadcastIn | chat | whisper | history | users | status => exact h

structure Shrinks (l k : Ledger) : Prop where
  admitted : k.admitted.Sublist l.admitted
  nicknames : ∀ {nickname id}, k.nicknames.get? nickname = some id →
    l.nicknames.get? nickname = some id
  rooms : ∀ {name rest}, k.rooms.get? name = some rest →
    ∃ room, l.rooms.get? name = some room ∧ rest = { room with members := rest.members } ∧
      rest.members.Sublist room.members

theorem shrinks_refl (l : Ledger) : l.Shrinks l :=
  ⟨List.Sublist.refl _, fun h => h, fun h => ⟨_, h, rfl, List.Sublist.refl _⟩⟩

theorem shrinks_leave (hg : l.Grounded) (hi : l.Indexed) (hh : l.Housed) (id : SessionId) :
    l.Shrinks (l.leave id) := by
  unfold leave
  split
  · refine ⟨List.filter_sublist, fun {nickname i} hn => ?_, fun {name rest} hr => ?_⟩
    · have hget : (l.depart id).nicknames.get? nickname = _ :=
        hi.get?_nicknamesWithout hg id nickname
      rw [hget] at hn
      split at hn
      · cases hn
      · exact hn
    · rw [hh.get?_depart hg] at hr
      obtain ⟨room, hroom, hrest⟩ := Option.bind_eq_some_iff.1 hr
      split at hrest
      · cases hrest
      · cases hrest
        exact ⟨room, hroom, rfl, List.filter_sublist⟩
  · exact l.shrinks_refl

theorem Step.fixed (hs : l.Step e k) (h : l.stopped)
    (stays : ∀ id, e ≠ .request (.leave id)) :
    k.admitted = l.admitted ∧ k.nicknames = l.nicknames ∧ k.rooms = l.rooms := by
  have hdeaf : ∀ {id}, ¬ l.hears id := fun hc =>
    absurd (h.symm.trans (hears_iff.1 hc).1) Bool.noConfusion
  cases hs with
  | welcome going => exact absurd (h.symm.trans going) Bool.noConfusion
  | depart => exact absurd rfl (stays _)
  | rename claimed => exact absurd claimed.1 hdeaf
  | reenter seeks | refuse seeks | enter seeks => exact absurd seeks.1 hdeaf
  | exit heard => exact absurd heard hdeaf
  | rest | create | stop | expire | halt => exact ⟨rfl, rfl, rfl⟩

end Ledger

def Request.tooLate : Request → Option (Except Fault Answer)
  | .join _ | .register .. | .joinRoom .. | .leaveRoom .. | .whisper .. =>
    some (.error .shuttingDown)
  | .chat .. | .broadcast .. | .broadcastIn .. => some (.ok .done)
  | .leave _ | .history .. | .users _ | .status | .shutDown => none

namespace Hub

variable {limits : Limits} {h : Hub} {id : SessionId} {s : Session}

theorem fades_step (hs : h.pool.get? id = some s) (stopped : s.stopped) (e : Event) :
    ∃ t, (h.step e).pool.get? id = some t ∧ s.Fades t := by
  have hsame : s.Fades s := Session.fades_of_same stopped rfl
  have hupdate : ∀ (i : SessionId) (f : Session → Session), s.Fades (f s) →
      ∃ t, (h.update i f).pool.get? id = some t ∧ s.Fades t := by
    intro i f hf
    rw [update, Pool.get?_update]
    by_cases hi : id = i
    · rw [if_pos hi, hs]
      exact ⟨f s, rfl, hf⟩
    · rw [if_neg hi, hs]
      exact ⟨s, rfl, hsame⟩
  cases e with
  | create remoteId transport capacity =>
    have hne : id ≠ h.pool.size := Nat.ne_of_lt (Pool.lt_size_of_get? hs)
    refine ⟨s, ?_, hsame⟩
    rw [step, create, Pool.get?_add, if_neg hne, hs]
  | act i a => exact hupdate i (·.act a) (Session.fades_act stopped a)
  | expire i => exact hupdate i (·.expire) (Session.fades_of_same stopped rfl)
  | tick stamp => exact ⟨s, hs, hsame⟩
  | request request =>
    have hget := h.get?_handle request id
    rw [hs, Option.map_some, Session.tellAll_of_stopped stopped] at hget
    -- a request may stop a session, but makes none run again
    refine ⟨_, hget, Session.fades_of_same ?_ rfl⟩
    have hrun : h.ledger.running id = !s.stopped := Pool.view_of_get? hs
    rw [stopped] at hrun
    dsimp only
    rw [Bool.not_eq_true', ← Bool.not_eq_true]
    intro hstill
    exact absurd (hrun.symm.trans (h.ledger.running_handle request hstill)) Bool.noConfusion

theorem fades_run (hs : h.pool.get? id = some s) (stopped : s.stopped) (es : List Event) :
    ∃ t, (h.run es).pool.get? id = some t ∧ s.Fades t := by
  induction es generalizing h s with
  | nil => exact ⟨s, hs, Session.fades_of_same stopped rfl⟩
  | cons e es ih =>
    obtain ⟨t, ht, hst⟩ := fades_step hs stopped e
    obtain ⟨u, hu, htu⟩ := ih ht hst.1
    exact ⟨u, hu, hst.trans htu⟩

theorem handle_of_stopped (stopped : h.stopped) {request : Request} {answer : Except Fault Answer}
    (late : request.tooLate = some answer) : h.handle request = (answer, h) := by
  have hdeaf : ∀ id, h.requester id = .error .shuttingDown := fun id => if_pos stopped
  cases request with
  | join id =>
    cases late
    rw [handle, join, if_pos stopped]
    rfl
  | register id nickname =>
    cases late
    rw [handle, register, hdeaf]
    rfl
  | joinRoom id name =>
    cases late
    rw [handle, joinRoom, roomSeeker, hdeaf]
    rfl
  | leaveRoom id name =>
    cases late
    rw [handle, leaveRoom, hdeaf]
    rfl
  | whisper id target body =>
    cases late
    rw [handle, whisper, hdeaf]
    rfl
  | chat id body =>
    cases late
    rw [handle, chat, hdeaf]
  | broadcast m sender =>
    cases late
    rw [handle, broadcast, if_pos stopped]
  | broadcastIn name m sender =>
    cases late
    rw [handle, broadcastIn, if_pos stopped]
  | leave | history | users | status | shutDown => cases late

structure Frozen (admitted : List SessionId) (h : Hub) : Prop where
  stopped : h.stopped
  forever : ∀ {es}, h.feasible es → (h.run es).stopped
  halted : ∀ {id s}, h.session id = .ok s → s.stopped
  late : ∀ {request answer}, request.tooLate = some answer → h.handle request = (answer, h)
  fixed : ∀ {e}, h.allows e → (∀ id, e ≠ .request (.leave id)) →
    (h.step e).admitted = h.admitted ∧ (h.step e).nicknames = h.nicknames ∧
      (h.step e).rooms = h.rooms
  shrinks : ∀ id, h.ledger.Shrinks (h.leave id).ledger
  /-- No text is taken by the queue of a session that was there, whoever offers it: what is left on
  the queue later was on it before. -/
  silent : ∀ id ∈ admitted, ∃ s, h.pool.get? id = some s ∧
    (∀ text, s.deliver text = .error .channelClosed) ∧
    (∀ {link link' : Link} {s' : Session} {now : Nat} {e : Link.Event},
      link.step s now e = some (link', s') → s'.outbox = s.outbox) ∧
    ∀ es, ∃ t, (h.run es).pool.get? id = some t ∧ t.outbox.texts <:+ s.outbox.texts

theorem Reachable.halted (hr : h.Reachable limits) : h.ledger.Halted := by
  have hboth := hr.ledger_induction (P := fun l => l.Grounded ∧ l.Halted)
    (fun _ _ => ⟨Ledger.grounded_start .., fun hs => nomatch hs⟩)
    fun hs h => ⟨h.1.step hs, h.2.step hs h.1⟩
  exact hboth.2

theorem stopped_run {es : List Event} (hf : h.feasible es) (stopped : h.stopped) :
    (h.run es).stopped :=
  run_induction (P := fun h => h.stopped = true) hf stopped fun _ _ he hs =>
    (ledger_step he).stopped hs

theorem frozen_of {admitted : List SessionId} (hr : h.Reachable limits) (stopped : h.stopped)
    (hall : ∀ id ∈ admitted, ∃ s, h.pool.get? id = some s ∧ s.stopped) : Frozen admitted h where
  stopped := stopped
  forever hf := stopped_run hf stopped
  halted {id s} hs := by
    have hrun := hr.halted stopped id (session_eq_ok_iff.1 hs).1
    rw [running_of_session hs, Bool.not_eq_false'] at hrun
    exact hrun
  late hlate := handle_of_stopped stopped hlate
  fixed he stays := (ledger_step he).fixed stopped stays
  shrinks id := by
    rw [ledger_leave]
    exact Ledger.shrinks_leave hr.grounded hr.indexed hr.housed id
  silent id hid := by
    obtain ⟨s, hs, hstop⟩ := hall id hid
    refine ⟨s, hs, Session.deliver_of_stopped hstop, fun hstep => ?_, fun es => ?_⟩
    · exact congrArg Session.outbox ((Link.step_of_eq_some hstep).eq_of_stopped hstop)
    · obtain ⟨t, ht, hfades⟩ := fades_run hs hstop es
      exact ⟨t, ht, hfades.2⟩

variable {archive : Option Archive} {stamp : String} {before after : List Event}

/-- A shutdown freezes the hub for good. -/
theorem shutdown_freezes
    (hf : (start limits archive stamp).feasible (before ++ [.request .shutDown] ++ after)) :
    Frozen ((start limits archive stamp).run before).admitted
      ((start limits archive stamp).run (before ++ [.request .shutDown] ++ after)) := by
  have hfirst := hf
  rw [feasible_append, Bool.and_eq_true] at hfirst
  have hreach := reachable_run hfirst.1
  have hlast := reachable_run hf
  have hshut : (start limits archive stamp).run (before ++ [.request .shutDown]) =
      ((start limits archive stamp).run before).shutDown := run_concat _ _ _
  rw [run_append, hshut] at hlast ⊢
  rw [hshut] at hfirst hreach
  generalize (start limits archive stamp).run before = h at *
  have hstopped : h.shutDown.stopped := by
    unfold shutDown
    cases hb : h.barrier with
    | none => rfl
    | some b =>
      rw [stopped, hb]
      rfl
  have hadmitted : h.shutDown.admitted = h.admitted := by
    unfold shutDown
    cases h.barrier <;> rfl
  -- whoever was admitted then had stopped, and stays so even where it is no longer admitted
  apply frozen_of hlast (stopped_run hfirst.2 hstopped)
  intro id hid
  rw [← hadmitted] at hid
  obtain ⟨s, hs⟩ := exists_session_of_mem hreach.grounded hid
  have hrun := hreach.halted hstopped id hid
  rw [running_of_session hs, Bool.not_eq_false'] at hrun
  obtain ⟨t, ht, hfades⟩ := fades_run (session_eq_ok_iff.1 hs).2 hrun after
  exact ⟨t, ht, hfades.1⟩

def lastCalls : List Event :=
  [.create "a" .line 16, .create "b" .line 16, .create "c" .line 16, .request (.join 0),
    .request (.join 1), .request (.register 0 "x"), .request (.joinRoom 1 "r"), .act 0 .stop]

def afterHours : List Event :=
  [.request (.chat 1 "hello"), .request (.join 2), .request (.register 1 "x"), .act 1 (.offer "y"),
    .act 1 .take, .request (.leave 0), .request .shutDown]

theorem shutdown_freezes_afterHours :
    (start .standard none "").feasible (lastCalls ++ [.request .shutDown] ++ afterHours) ∧
      ((start .standard none "").run lastCalls).admitted = [0, 1] ∧
      ((start .standard none "").run
        (lastCalls ++ [.request .shutDown] ++ afterHours)).admitted = [1] ∧
      Frozen ((start .standard none "").run lastCalls).admitted
        ((start .standard none "").run (lastCalls ++ [.request .shutDown] ++ afterHours)) :=
  ⟨by decide +kernel, by decide +kernel, by decide +kernel, shutdown_freezes (by decide +kernel)⟩

end Hub
end ChatRelay

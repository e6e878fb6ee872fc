import ChatRelay.Proofs.Link.Discipline
import ChatRelay.Proofs.Membership
import ChatRelay.Proofs.Relay.Letters

/-! What a driver knows about its session. A driver has one errand at a time that is answered, so
that whatever room it saw its session in when it wrote to the hub is the room until the hub has
read the letter. -/

namespace ChatRelay

def Errand.Planned (id : SessionId) (e : Errand) : Prop :=
  e.command.request? id e.room = some e.request

namespace Request

theorem answered_of_moves? {request : Request} {id : SessionId} (h : request.moves? = some id) :
    request.answered := by
  cases request with
  | joinRoom | leaveRoom | leave => rfl
  | _ => cases h

end Request

namespace Hub

theorem allows_of_ne_join {h : Hub} {request : Request} (hr : ∀ id, request ≠ .join id) :
    h.allows (.request request) := by
  cases request with
  | join id => exact absurd rfl (hr id)
  | _ => rfl

end Hub

namespace Errand.Planned

variable {id i : SessionId} {e : Errand}

theorem inversion (hp : e.Planned id) :
    (∃ name, e.command = .leave ∧ e.room = some name ∧ e.request = .leaveRoom id name) ∨
      (∃ name, e.command = .join name ∧ e.room ≠ some name ∧ e.request = .joinRoom id name) ∨
        (∀ name, e.command ≠ .leave ∧ e.command ≠ .join name) ∧ e.request.moves? = none ∧
          ∀ i, e.request ≠ .join i := by
  obtain ⟨command, room, request⟩ := e
  unfold Planned Command.request? at hp
  dsimp only at hp ⊢
  cases command with
  | leave =>
    cases room with
    | none => cases hp
    | some name =>
      cases hp
      exact .inl ⟨name, rfl, rfl, rfl⟩
  | join name =>
    by_cases hr : room = some name
    · simp [Command.plan, hr] at hp
    · simp only [Command.plan, hr, if_false, Option.some.injEq] at hp
      exact .inr (.inl ⟨name, rfl, hr, hp.symm⟩)
  | nick | users | pm | history | chat =>
    cases hp
    exact .inr (.inr (by simp [Request.moves?]))
  | help | quit | usage | unknown | empty => cases hp

theorem moves (hp : e.Planned id) (h : e.request.moves? = some i) : i = id := by
  rcases hp.inversion with ⟨name, -, -, hr⟩ | ⟨name, -, -, hr⟩ | ⟨-, hn, -⟩
  · rw [hr] at h
    cases h
    rfl
  · rw [hr] at h
    cases h
    rfl
  · rw [hn] at h
    cases h

theorem ne_leave (hp : e.Planned id) : e.request ≠ .leave i := by
  intro hr
  exact Command.request?_ne_leave (hp.trans (congrArg some hr))

theorem allows (hp : e.Planned id) (h : Hub) : h.allows (.request e.request) := by
  rcases hp.inversion with ⟨name, -, -, hr⟩ | ⟨name, -, -, hr⟩ | ⟨-, -, hn⟩
  · rw [hr]
    rfl
  · rw [hr]
    rfl
  · exact Hub.allows_of_ne_join hn

theorem leaves (hp : e.Planned id) (h : e.command = .leave) :
    ∃ name, e.room = some name ∧ e.request = .leaveRoom id name := by
  rcases hp.inversion with ⟨name, -, hroom⟩ | ⟨name, hc, -⟩ | ⟨hn, -⟩
  · exact ⟨name, hroom⟩
  · rw [hc] at h
    cases h
  · exact absurd h (hn "").1

theorem room_of_leaveRoom (hp : e.Planned id) {name : String}
    (h : e.request = .leaveRoom i name) : e.room = some name := by
  rcases hp.inversion with ⟨name', -, hroom, hr⟩ | ⟨name', -, -, hr⟩ | ⟨-, hn, -⟩
  · rw [hr] at h
    cases h
    exact hroom
  · rw [hr] at h
    cases h
  · rw [h] at hn
    cases hn

theorem room_of_joinRoom (hp : e.Planned id) {name : String}
    (h : e.request = .joinRoom i name) : e.room ≠ some name := by
  rcases hp.inversion with ⟨name', -, -, hr⟩ | ⟨name', -, hroom, hr⟩ | ⟨-, hn, -⟩
  · rw [hr] at h
    cases h
  · rw [hr] at h
    cases h
    exact hroom
  · rw [h] at hn
    cases hn

end Errand.Planned

namespace Ledger

theorem Step.mem_admitted {l k : Ledger} {e : Hub.Event} {id : SessionId} (hs : l.Step e k)
    (hl : e ≠ .request (.leave id)) (ha : id ∈ l.admitted) : id ∈ k.admitted := by
  cases hs with
  | welcome => exact List.mem_append_left _ ha
  | @depart i =>
    have hne : id ≠ i := by
      rintro rfl
      exact hl rfl
    exact List.mem_filter.2 ⟨ha, decide_eq_true hne⟩
  | rest | create | stop | expire | rename | reenter | refuse | enter | exit | halt => exact ha

end Ledger

namespace Hub

structure Stays (h k : Hub) (id : SessionId) : Prop where
  room : (k.ledger.profile id).room = (h.ledger.profile id).room
  admitted : id ∈ h.admitted → id ∈ k.admitted

variable {h : Hub} {id : SessionId}

theorem Stays.refl (h : Hub) (id : SessionId) : h.Stays h id := ⟨rfl, fun ha => ha⟩

theorem stays_of_step {e : Event} (allowed : h.allows e) (hm : e.moves? ≠ some id) :
    h.Stays (h.step e) id := by
  have hs := ledger_step allowed
  refine ⟨?_, fun ha => hs.mem_admitted (fun he => hm (by rw [he]; rfl)) ha⟩
  rcases hs.room_cases id with hr | ⟨he, -⟩ | ⟨name, room, -, he, -⟩
  · exact hr
  · rcases he with rfl | ⟨name, rfl⟩
    · exact absurd rfl hm
    · exact absurd rfl hm
  · subst he
    exact absurd rfl hm

theorem answer_leaveRoom {s : Session} {name : String} (hs : h.session id = .ok s)
    (here : s.profile.room = some name) : (h.handle (.leaveRoom id name)).1 = .ok .done ∨
      (h.handle (.leaveRoom id name)).1 = .error .shuttingDown := by
  simp only [handle, leaveRoom, requester]
  cases h.stopped with
  | true => exact .inr rfl
  | false => exact .inl (by simp [hs, here, bind, Except.bind, pure, Except.pure, attempt])

end Hub

namespace Link

variable {l l' : Link} {s s' : Session} {now : Nat} {e : Event}

theorem Step.departed (hs : l.Step s now e l' s') (hd : l.departure ≠ .pending) :
    l'.departure ≠ .pending := by
  cases hs with
  | leave | left => simp
  | reply | post | quit | discard | skip | hangUp | accept | answer | giveUp | halt | take | mark
  | written | fail | cease | close => exact hd

theorem Step.kept (hs : l.Step s now e l' s') :
    s'.profile = s.profile ∧ s'.expired = s.expired := by
  cases hs with
  | reply | answer =>
    rw [Session.tellAll_eq]
    exact ⟨rfl, rfl⟩
  | quit =>
    have ht : (s.tell .goodbye).profile = s.profile ∧ (s.tell .goodbye).expired = s.expired :=
      ⟨Session.profile_offer .., Session.expired_offer ..⟩
    obtain ⟨_, -, hc⟩ | ⟨-, hc⟩ := (s.tell .goodbye).closeAfterFlush_cases
    · rw [hc]
      exact ht
    · rw [hc]
      exact ht
  | post | discard | skip | hangUp | accept | giveUp | halt | take | mark | written | fail | cease
  | close | leave | left => exact ⟨rfl, rfl⟩

end Link

namespace Hub

variable {h : Hub} {i : SessionId} {s s' : Session}

theorem ledger_update_of_kept (hs : h.pool.get? i = some s)
    (kept : s'.profile = s.profile ∧ s'.expired = s.expired) :
    (h.update i fun _ => s').ledger =
      { h.ledger with running := Function.update h.ledger.running i !s'.stopped } := by
  have hp : h.ledger.profile i = s'.profile := kept.1 ▸ Pool.view_of_get? hs
  have he : h.ledger.present i = !s'.expired := kept.2 ▸ Pool.view_of_get? hs
  rw [ledger_update hs, ← hp, ← he, Function.update_eq_self, Function.update_eq_self]

theorem stays_of_kept (hs : h.pool.get? i = some s)
    (kept : s'.profile = s.profile ∧ s'.expired = s.expired) (id : SessionId) :
    h.Stays (h.update i fun _ => s') id :=
  ⟨by rw [ledger_update_of_kept hs kept], fun ha => ha⟩

theorem grounded_of_kept (hs : h.pool.get? i = some s)
    (kept : s'.profile = s.profile ∧ s'.expired = s.expired) (hg : h.ledger.Grounded) :
    (h.update i fun _ => s').ledger.Grounded := by
  rw [ledger_update_of_kept hs kept]
  exact ⟨hg.nodup, hg.known, hg.present⟩

end Hub

def Reader.due : Reader → Nat
  | .waiting _ => 1
  | _ => 0

namespace Connection

/-- The driver has a right view of its session, with so many answers to its letters under way. -/
structure Tended (h : Hub) (abroad : Nat) (c : Connection) : Prop where
  posting : ∀ {e}, c.link.reader = .posting e →
    e.Planned c.link.session ∧ e.room = (h.ledger.profile c.link.session).room
  waiting : ∀ {e}, c.link.reader = .waiting e → e.Planned c.link.session ∧ e.request.answered
  parted : ∀ {e a}, c.link.reader = .waiting e → e.command = .leave → c.answer = some a →
    a = .ok .done ∨ a = .error .shuttingDown
  alone : c.link.reader ≠ .done → abroad + c.answer.toList.length ≤ c.link.reader.due
  leaving : c.link.departure ≠ .pending → c.link.reader = .done
  admitted : c.link.departure = .pending → c.link.session ∈ h.admitted

theorem expects_cases {c : Connection} {request : Request} (h : c.expects request) :
    (∃ id, request = .leave id) ∧ c.link.departure ≠ .pending ∨
      ∃ e, c.link.reader = .waiting e ∧ e.request = request := by
  unfold expects at h
  split at h
  · rw [beq_iff_eq] at h
    exact .inl ⟨⟨_, rfl⟩, by simp [h]⟩
  · split at h
    · next e hr => exact .inr ⟨e, hr, beq_iff_eq.1 h⟩
    · cases h

theorem link_hear (c : Connection) (request : Request) (answer : Except Fault Answer) :
    (c.hear request answer).link = c.link := by
  unfold hear
  split <;> rfl

theorem link_absorb (c : Connection) (link : Link) (e : Link.Event) :
    (c.absorb link e).link = link := by
  unfold absorb
  split <;> rfl

namespace Tended

variable {h k : Hub} {n n' : Nat} {c c' : Connection}

theorem going (ht : c.Tended h n) (hr : c.link.reader ≠ .done) : c.link.departure = .pending := by
  by_contra hd
  exact hr (ht.leaving hd)

theorem mono (ht : c.Tended h n) (hs : h.Stays k c.link.session) (hn : n' ≤ n)
    (hsession : c'.link.session = c.link.session) (hreader : c'.link.reader = c.link.reader)
    (hdeparture : c'.link.departure = c.link.departure) (hanswer : c'.answer = c.answer) :
    c'.Tended k n' where
  posting hp := by
    rw [hreader] at hp
    rw [hsession, hs.room]
    exact ht.posting hp
  waiting hw := by
    rw [hreader] at hw
    rw [hsession]
    exact ht.waiting hw
  parted hw hc ha := ht.parted (hreader ▸ hw) hc (hanswer ▸ ha)
  alone hr := by
    rw [hreader] at hr ⊢
    rw [hanswer]
    exact Nat.le_trans (Nat.add_le_add_right hn _) (ht.alone hr)
  leaving hd := by
    rw [hreader]
    exact ht.leaving (hdeparture ▸ hd)
  admitted hd := by
    rw [hsession]
    exact hs.admitted (ht.admitted (hdeparture ▸ hd))

theorem ended (hdone : c.link.reader = .done)
    (hadm : c.link.departure = .pending → c.link.session ∈ h.admitted) : c.Tended h n where
  posting hp := by
    rw [hdone] at hp
    cases hp
  waiting hw := by
    rw [hdone] at hw
    cases hw
  parted hw := by
    rw [hdone] at hw
    cases hw
  alone hr := absurd hdone hr
  leaving _ := hdone
  admitted := hadm

theorem idle (hdue : c.link.reader.due = 0) (ha : c.answer = none)
    (hd : c.link.departure = .pending) (hadm : c.link.session ∈ h.admitted)
    (hposting : ∀ e, c.link.reader = .posting e →
      e.Planned c.link.session ∧ e.room = (h.ledger.profile c.link.session).room) :
    c.Tended h 0 where
  posting hp := hposting _ hp
  waiting hw := by
    rw [hw] at hdue
    cases hdue
  parted hw := by
    rw [hw] at hdue
    cases hdue
  alone _ := by
    rw [ha]
    exact Nat.zero_le _
  leaving hne := absurd hd hne
  admitted _ := hadm

theorem receptive (hr : c.link.Receptive) (ha : c.answer = none)
    (hd : c.link.departure = .pending) (hadm : c.link.session ∈ h.admitted) : c.Tended h 0 := by
  rcases hr with hr | ⟨deadline, hr⟩
  · exact idle (by rw [hr]; rfl) ha hd hadm fun e hp => by simp [hr] at hp
  · exact idle (by rw [hr]; rfl) ha hd hadm fun e hp => by simp [hr] at hp

theorem quiet (ht : c.Tended h n) (hr : c.link.reader ≠ .done) (hdue : c.link.reader.due = 0) :
    n = 0 ∧ c.answer = none := by
  have hle := ht.alone hr
  rw [hdue, Nat.le_zero, Nat.add_eq_zero_iff, List.length_eq_zero_iff] at hle
  exact ⟨hle.1, Option.toList_eq_nil_iff.1 hle.2⟩

theorem engaged (ht : c.Tended h (n + 1)) (hr : c.link.reader ≠ .done) :
    ∃ e, c.link.reader = .waiting e ∧ n = 0 ∧ c.answer = none := by
  have hle := ht.alone hr
  cases hreader : c.link.reader with
  | waiting e =>
    rw [hreader, Reader.due] at hle
    have hsum : n + c.answer.toList.length = 0 := by omega
    rw [Nat.add_eq_zero_iff, List.length_eq_zero_iff, Option.toList_eq_nil_iff] at hsum
    exact ⟨e, rfl, hsum⟩
  | done => exact absurd hreader hr
  | reading | posting | flushing =>
    have hdue : c.link.reader.due = 0 := by rw [hreader]; rfl
    exact absurd (ht.quiet hr hdue).1 (Nat.succ_ne_zero n)

theorem recede (ht : c.Tended h (n + 1))
    (hadm : c.link.departure = .pending → c.link.session ∈ k.admitted) (hn : n' ≤ n + 1) :
    c.Tended k n' := by
  by_cases hr : c.link.reader = .done
  · exact ended hr hadm
  · obtain ⟨e, hw, rfl, ha⟩ := ht.engaged hr
    refine ⟨fun hp => ?_, ht.waiting, ht.parted, fun hr => ?_, ht.leaving, hadm⟩
    · rw [hw] at hp
      cases hp
    · exact Nat.le_trans (Nat.add_le_add_right hn _) (ht.alone hr)

theorem hear (ht : c.Tended h (n + 1)) {request : Request} {answer : Except Fault Answer}
    (hadm : c.link.departure = .pending → c.link.session ∈ k.admitted)
    (hparted : ∀ e, c.link.reader = .waiting e → e.request = request → e.command = .leave →
      answer = .ok .done ∨ answer = .error .shuttingDown) :
    (c.hear request answer).Tended k n := by
  unfold Connection.hear
  by_cases hc : c.expects request
  · rw [if_pos hc]
    by_cases hr : c.link.reader = .done
    · exact ended hr hadm
    · obtain ⟨e, hw, rfl, -⟩ := ht.engaged hr
      refine ⟨fun hp => ?_, ht.waiting, ?_, fun _ => ?_, ht.leaving, hadm⟩
      · dsimp only at hp
        rw [hw] at hp
        cases hp
      · intro e' a hw' hl ha
        cases ha
        rcases expects_cases hc with ⟨-, hd⟩ | ⟨e'', hw'', heq⟩
        · exact absurd (ht.leaving hd) hr
        · dsimp only at hw'
          rw [hw''] at hw'
          cases hw'
          exact hparted _ hw'' heq hl
      · dsimp only
        rw [hw]
        exact Nat.le_refl _
  · rw [if_neg hc]
    exact ht.recede hadm (Nat.le_succ n)

theorem hear_unanswered (ht : c.Tended h n) {request : Request} (hr : request.answered = false)
    (answer : Except Fault Answer) : c.hear request answer = c := by
  have hc : ¬ c.expects request := by
    intro hc
    rcases expects_cases hc with ⟨⟨id, rfl⟩, -⟩ | ⟨e, hw, rfl⟩
    · cases hr
    · rw [(ht.waiting hw).2] at hr
      cases hr
  rw [Connection.hear, if_neg hc]

theorem act {i now : Nat} {s s' : Session} {e : Link.Event} {link : Link} (ht : c.Tended h n)
    (hs : c.link.Step s now e link s') (stays : h.Stays k c.link.session)
    (room : s.profile.room = (h.ledger.profile c.link.session).room)
    (answered : ∀ a, e = .answered a → c.answer = some a) :
    (c.absorb link e).Tended k
      (n + (c.link.letter? i e).toList.countP (·.request.answered)) := by
  have hadm : c.link.reader ≠ .done → c.link.session ∈ k.admitted := fun hr =>
    stays.admitted (ht.admitted (ht.going hr))
  cases hs with
  | reply | discard | skip | mark | written | fail | cease | close =>
    exact ht.mono stays (Nat.le_refl n) rfl rfl rfl rfl
  | take => exact ht.mono stays (Nat.le_refl n) rfl rfl rfl rfl
  | hangUp _ receptive =>
    have hr : c.link.reader ≠ .done := by
      rcases receptive with hr | ⟨_, hr⟩ <;> simp [hr]
    exact ended rfl fun _ => hadm hr
  | giveUp flushing => exact ended rfl fun _ => hadm (by simp [flushing])
  | halt _ reading => exact ended rfl fun _ => hadm reading
  | leave read => exact ended read fun hd => by simp [link_absorb] at hd
  | left announced =>
    have hdone := ht.leaving (by simp [announced])
    exact ended hdone fun hd => by simp [link_absorb] at hd
  | @post text request reading _ planned =>
    have hr : c.link.reader ≠ .done := by simp [reading]
    obtain ⟨rfl, ha⟩ := ht.quiet hr (by rw [reading]; rfl)
    refine idle rfl ha (ht.going hr) (hadm hr) fun e hp => ?_
    cases hp
    refine ⟨?_, room.trans stays.room.symm⟩
    show (Command.parse text).request? c.link.session s.profile.room = some request
    rw [Command.request?, planned]
  | quit reading =>
    have hr : c.link.reader ≠ .done := by simp [reading]
    obtain ⟨rfl, ha⟩ := ht.quiet hr (by rw [reading]; rfl)
    exact receptive (.inr ⟨_, rfl⟩) ha (ht.going hr) (hadm hr)
  | @accept errand posting =>
    have hr : c.link.reader ≠ .done := by simp [posting]
    obtain ⟨rfl, -⟩ := ht.quiet hr (by rw [posting]; rfl)
    have hletter : c.link.letter? i .accepted = some (.errand i errand) := by
      simp only [Link.letter?, posting]
    rw [hletter, Option.toList_some, List.countP_singleton]
    cases hanswered : errand.request.answered with
    | true =>
      rw [if_pos (show (Letter.errand i errand).request.answered from hanswered), if_pos rfl]
      refine ⟨fun hp => ?_, fun hw => ?_, fun _ _ ha => ?_, fun _ => Nat.le_refl 1,
        fun hd => absurd (ht.going hr) hd, fun _ => hadm hr⟩
      · rw [link_absorb] at hp
        cases hp
      · cases hw
        exact ⟨(ht.posting posting).1, hanswered⟩
      · cases ha
    | false =>
      have hunanswered : ¬ (Letter.errand i errand).request.answered := by
        rw [show (Letter.errand i errand).request = errand.request from rfl, hanswered]
        exact Bool.false_ne_true
      rw [if_neg hunanswered, if_neg Bool.false_ne_true]
      exact receptive (.inl rfl) rfl (ht.going hr) (hadm hr)
  | @answer errand a waiting =>
    have hr : c.link.reader ≠ .done := by simp [waiting]
    have hle := ht.alone hr
    rw [answered a rfl, waiting, Option.toList_some, List.length_singleton, Reader.due] at hle
    obtain rfl : n = 0 := by omega
    exact receptive (.inl rfl) rfl (ht.going hr) (hadm hr)

end Tended
end Connection
end ChatRelay

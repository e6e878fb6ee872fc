import ChatRelay.Proofs.Relay.Tended
import Mathlib.Data.List.Perm.Basic

/-! What the drivers of a relay know about the rooms of their sessions is never out of date when
the hub acts on it. Nobody but the hub moves a session, and it moves a driven session only at the
request of its driver, which has no other request under way that could. -/

namespace ChatRelay

namespace Letter

def final : Letter → Bool
  | errand .. => false
  | farewell .. => true

/-- After a letter that is answered its sender has only its farewell to send. -/
def Precedes (a b : Letter) : Prop :=
  a.sender = b.sender → a.request.answered → a.final = false ∧ b.final

def owes (i : Nat) (m : Letter) : Bool := m.sender == i && m.request.answered

end Letter

namespace Post

def sessions (p : Post) : List SessionId := p.connections.map (·.link.session)

def abroad (p : Post) (i : Nat) : Nat :=
  p.letters.countP (·.owes i) + p.loads.countP (·.connection == i)

/-- What a letter says of its sender is so. -/
def Fresh (p : Post) : Letter → Prop
  | .errand i e => ∃ c, p.connections[i]? = some c ∧ c.link.session ∈ p.hub.admitted ∧
      e.Planned c.link.session ∧
      (e.request.answered → e.room = (p.hub.ledger.profile c.link.session).room)
  | .farewell i id => ∃ c, p.connections[i]? = some c ∧ c.link.session = id ∧
      c.link.departure ≠ .pending

/-- Drivers and letters know where sessions are. -/
structure Tidy (p : Post) : Prop where
  grounded : p.hub.ledger.Grounded
  apart : p.sessions.Nodup
  tended : ∀ {i : Nat} {c : Connection}, p.connections[i]? = some c → c.Tended p.hub (p.abroad i)
  fresh : ∀ m ∈ p.letters, p.Fresh m
  ordered : p.letters.Pairwise Letter.Precedes
  read : ∀ l ∈ p.loads, l.connection < p.connections.length ∧
    ∃ id limit, l.request = .history id limit

structure Sequel (p q : Post) : Prop where
  sessions : q.sessions = p.sessions
  departed : ∀ {i : Nat} {c : Connection}, p.connections[i]? = some c →
    ∃ d : Connection, q.connections[i]? = some d ∧ d.link.session = c.link.session ∧
      (c.link.departure ≠ .pending → d.link.departure ≠ .pending)

variable {p q : Post} {i j : Nat} {c d : Connection} {m : Letter} {id : SessionId}

theorem drives_iff : p.drives id ↔
    ∃ (i : Nat) (c : Connection), p.connections[i]? = some c ∧ c.link.session = id := by
  unfold drives
  rw [List.any_eq_true]
  constructor
  · rintro ⟨c, hc, hid⟩
    obtain ⟨i, hi⟩ := List.mem_iff_getElem?.1 hc
    exact ⟨i, c, hi, beq_iff_eq.1 hid⟩
  · rintro ⟨i, c, hc, hid⟩
    exact ⟨c, List.mem_of_getElem? hc, beq_iff_eq.2 hid⟩

theorem Tidy.eq_of_session (ht : p.Tidy) (hc : p.connections[i]? = some c)
    (hd : p.connections[j]? = some d) (h : c.link.session = d.link.session) : i = j := by
  have hci : p.sessions[i]? = some c.link.session := by
    rw [sessions, List.getElem?_map, hc, Option.map_some]
  have hdj : p.sessions[j]? = some c.link.session := by
    rw [sessions, List.getElem?_map, hd, Option.map_some, h]
  obtain ⟨hi, -⟩ := List.getElem?_eq_some_iff.1 hci
  exact (List.getElem?_inj hi ht.apart).1 (hci.trans hdj.symm)

/-! ### Connections one by one -/

theorem getElem?_modify_self {f : Connection → Connection}
    (hq : q.connections = p.connections.modify i f) (hc : p.connections[i]? = some c) :
    q.connections[i]? = some (f c) := by
  simp [hq, hc]

theorem getElem?_modify_cases {f : Connection → Connection}
    (hq : q.connections = p.connections.modify i f) (hd : q.connections[j]? = some d) :
    ∃ c, p.connections[j]? = some c ∧ (j = i ∧ d = f c ∨ j ≠ i ∧ d = c) := by
  rw [hq, List.getElem?_modify] at hd
  obtain ⟨c, hc, rfl⟩ := Option.map_eq_some_iff.1 hd
  refine ⟨c, hc, ?_⟩
  by_cases hj : i = j
  · exact .inl ⟨hj.symm, if_pos hj⟩
  · exact .inr ⟨fun h => hj h.symm, if_neg hj⟩

theorem sequel_modify {f : Connection → Connection}
    (hq : q.connections = p.connections.modify i f)
    (hf : ∀ c, p.connections[i]? = some c → (f c).link.session = c.link.session ∧
      (c.link.departure ≠ .pending → (f c).link.departure ≠ .pending)) : p.Sequel q where
  sessions := by
    apply List.ext_getElem?
    intro j
    rw [sessions, sessions, List.getElem?_map, List.getElem?_map]
    cases hc : p.connections[j]? with
    | none =>
      rw [hq, List.getElem?_modify, hc]
      rfl
    | some c =>
      by_cases hj : j = i
      · subst hj
        rw [getElem?_modify_self hq hc, Option.map_some, Option.map_some, (hf c hc).1]
      · rw [hq, List.getElem?_modify, hc]
        simp [Ne.symm hj]
  departed {j c} hc := by
    by_cases hj : j = i
    · subst hj
      exact ⟨f c, getElem?_modify_self hq hc, hf c hc⟩
    · refine ⟨c, ?_, rfl, fun h => h⟩
      rw [hq, List.getElem?_modify, hc]
      simp [Ne.symm hj]

theorem tended_modify (ht : p.Tidy) {f : Connection → Connection}
    (hq : q.connections = p.connections.modify i f)
    (others : ∀ j c, j ≠ i → p.connections[j]? = some c →
      p.hub.Stays q.hub c.link.session ∧ q.abroad j ≤ p.abroad j)
    (self : ∀ c, p.connections[i]? = some c → (f c).Tended q.hub (q.abroad i))
    (hd : q.connections[j]? = some d) : d.Tended q.hub (q.abroad j) := by
  obtain ⟨c, hc, ⟨rfl, rfl⟩ | ⟨hj, rfl⟩⟩ := getElem?_modify_cases hq hd
  · exact self c hc
  · obtain ⟨hs, hn⟩ := others j _ hj hc
    exact (ht.tended hc).mono hs hn rfl rfl rfl rfl

theorem Fresh.mono (hm : p.Fresh m) (hpq : p.Sequel q)
    (stays : m.final = false → ∀ c, p.connections[m.sender]? = some c →
      p.hub.Stays q.hub c.link.session) : q.Fresh m := by
  cases m with
  | errand i e =>
    obtain ⟨c, hc, ha, hp, hr⟩ := hm
    obtain ⟨d, hd, hs, -⟩ := hpq.departed hc
    have hstays := stays rfl c hc
    refine ⟨d, hd, ?_, ?_, fun h => ?_⟩
    · rw [hs]
      exact hstays.admitted ha
    · rw [hs]
      exact hp
    · rw [hs, hstays.room]
      exact hr h
  | farewell i id =>
    obtain ⟨c, hc, rfl, hdep⟩ := hm
    obtain ⟨d, hd, hs, hdep'⟩ := hpq.departed hc
    exact ⟨d, hd, hs, hdep' hdep⟩

/-! ### What is under way -/

theorem owes_iff : m.owes i ↔ m.sender = i ∧ m.request.answered := by
  simp [Letter.owes]

theorem abroad_append {ms : List Letter} (hl : q.letters = p.letters ++ ms)
    (hr : q.loads = p.loads) (i : Nat) : q.abroad i = p.abroad i + ms.countP (·.owes i) := by
  rw [abroad, abroad, hl, hr, List.countP_append]
  omega

theorem abroad_cons {letters : List Letter} (hp : p.letters = m :: letters)
    (hl : q.letters = letters) (hr : q.loads = p.loads) (i : Nat) :
    p.abroad i = q.abroad i + if m.owes i then 1 else 0 := by
  rw [abroad, abroad, hp, hl, hr, List.countP_cons]
  omega

theorem abroad_look {letters : List Letter} {answer : Answer} (hp : p.letters = m :: letters)
    (hm : m.request.answered) (hl : q.letters = letters)
    (hr : q.loads = p.loads ++ [⟨m.sender, m.request, answer⟩]) (i : Nat) :
    p.abroad i = q.abroad i := by
  have howes : m.owes i = (m.sender == i) := by rw [Letter.owes, hm, Bool.and_true]
  rw [abroad, abroad, hp, hl, hr, List.countP_cons, List.countP_append, List.countP_singleton,
    howes]
  dsimp only
  omega

theorem abroad_eraseIdx {n : Nat} {load : Load} (there : p.loads[n]? = some load)
    (hl : q.letters = p.letters) (hr : q.loads = p.loads.eraseIdx n) (i : Nat) :
    p.abroad i = q.abroad i + if load.connection == i then 1 else 0 := by
  obtain ⟨hn, hload⟩ := List.getElem?_eq_some_iff.1 there
  have hperm := (List.getElem_cons_eraseIdx_perm hn).countP_eq (·.connection == i)
  rw [List.countP_cons, hload] at hperm
  rw [abroad, abroad, hl, hr, ← hperm]
  omega

theorem abroad_pos (hm : m ∈ p.letters) (ho : m.owes i) : 0 < p.abroad i :=
  Nat.add_pos_left (List.countP_pos_iff.2 ⟨m, hm, ho⟩) _

/-! ### The driver acts -/

theorem letter?_cases {s s' : Session} {now : Nat} {e : Link.Event} {link : Link}
    (hs : c.link.Step s now e link s') (hm : c.link.letter? i e = some m) :
    (∃ errand, c.link.reader = .posting errand ∧ m = .errand i errand) ∨
      c.link.departure = .pending ∧ link.departure ≠ .pending ∧
        m = .farewell i c.link.session := by
  cases hs with
  | @accept errand posting =>
    simp only [Link.letter?, posting, Option.some.injEq] at hm
    exact .inl ⟨errand, posting, hm.symm⟩
  | leave _ _ pending =>
    cases hm
    exact .inr ⟨pending, by simp, rfl⟩
  | reply | post | quit | discard | skip | hangUp | answer | giveUp | halt | take | mark | written
  | fail | cease | close | left => cases hm

theorem countP_owes_of_ne {l : Link} {e : Link.Event} (hj : j ≠ i) :
    (l.letter? i e).toList.countP (·.owes j) = 0 := by
  refine List.countP_eq_zero.2 fun m hm ho => hj ?_
  rw [← (owes_iff.1 ho).1, Link.sender_of_letter? (Option.mem_toList.1 hm)]

theorem countP_owes_self {l : Link} {e : Link.Event} :
    (l.letter? i e).toList.countP (·.owes i) =
      (l.letter? i e).toList.countP (·.request.answered) := by
  refine List.countP_congr fun m hm => ?_
  rw [owes_iff, and_iff_right (Link.sender_of_letter? (Option.mem_toList.1 hm))]

section Act

variable {s s' : Session} {now : Nat} {e : Link.Event} {link : Link}

theorem Tidy.fresh_letter (ht : p.Tidy) (here : p.connections[i]? = some c)
    (step : c.link.Step s now e link s') (hm : c.link.letter? i e = some m)
    (hd : q.connections[i]? = some (c.absorb link e))
    (stays : p.hub.Stays q.hub c.link.session) : q.Fresh m := by
  have htended := ht.tended here
  have hlink := c.link_absorb link e
  rcases letter?_cases step hm with ⟨errand, posting, rfl⟩ | ⟨-, leaving, rfl⟩
  · obtain ⟨planned, room⟩ := htended.posting posting
    have hr : c.link.reader ≠ .done := by simp [posting]
    refine ⟨_, hd, ?_, ?_, fun _ => ?_⟩
    · rw [hlink, step.session_eq]
      exact stays.admitted (htended.admitted (htended.going hr))
    · rw [hlink, step.session_eq]
      exact planned
    · rw [hlink, step.session_eq, stays.room]
      exact room
  · refine ⟨_, hd, ?_, ?_⟩
    · rw [hlink, step.session_eq]
    · rw [hlink]
      exact leaving

theorem Tidy.precedes_letter (ht : p.Tidy) (here : p.connections[i]? = some c)
    (step : c.link.Step s now e link s') (hm : c.link.letter? i e = some m) {a : Letter}
    (ha : a ∈ p.letters) : a.Precedes m := by
  intro hsender hanswered
  rw [Link.sender_of_letter? hm] at hsender
  have htended := ht.tended here
  rcases letter?_cases step hm with ⟨errand, posting, rfl⟩ | ⟨pending, -, rfl⟩
  · have hr : c.link.reader ≠ .done := by simp [posting]
    have hpos := abroad_pos ha (owes_iff.2 ⟨hsender, hanswered⟩)
    rw [(htended.quiet hr (by rw [posting]; rfl)).1] at hpos
    cases hpos
  · refine ⟨?_, rfl⟩
    cases a with
    | errand => rfl
    | farewell j id =>
      obtain ⟨d, hd, -, hdep⟩ := ht.fresh _ ha
      obtain rfl : j = i := hsender
      rw [here] at hd
      cases hd
      exact absurd pending hdep

theorem Tidy.act (ht : p.Tidy) (here : p.connections[i]? = some c)
    (session : p.hub.pool.get? c.link.session = some s) (step : c.link.Step s now e link s')
    (answered : ∀ a, e = .answered a → c.answer = some a)
    (hhub : q.hub = p.hub.update c.link.session fun _ => s')
    (hconnections : q.connections = p.connections.set i (c.absorb link e))
    (hletters : q.letters = p.letters ++ (c.link.letter? i e).toList)
    (hloads : q.loads = p.loads) : q.Tidy := by
  have hstays : ∀ id, p.hub.Stays q.hub id := fun id => by
    rw [hhub]
    exact Hub.stays_of_kept session step.kept id
  have hmodify : q.connections = p.connections.modify i fun _ => c.absorb link e := by
    rw [hconnections, List.set_eq_modify]
  have hsequel : p.Sequel q := sequel_modify hmodify fun d hd => by
    rw [here] at hd
    cases hd
    rw [Connection.link_absorb]
    exact ⟨step.session_eq, step.departed⟩
  have habroad : ∀ j, q.abroad j = p.abroad j + (c.link.letter? i e).toList.countP (·.owes j) :=
    abroad_append hletters hloads
  have hprofile : p.hub.ledger.profile c.link.session = s.profile := Pool.view_of_get? session
  refine ⟨?_, ?_, ?_, ?_, ?_, ?_⟩
  · rw [hhub]
    exact Hub.grounded_of_kept session step.kept ht.grounded
  · rw [hsequel.sessions]
    exact ht.apart
  · refine tended_modify ht hmodify (fun j d hj _ => ⟨hstays _, ?_⟩) fun d hd => ?_
    · rw [habroad, countP_owes_of_ne hj]
      exact Nat.le_refl _
    · rw [habroad, countP_owes_self]
      exact (ht.tended here).act step (hstays _) (congrArg Profile.room hprofile).symm answered
  · intro m hm
    rw [hletters, List.mem_append, Option.mem_toList] at hm
    rcases hm with hm | hm
    · exact (ht.fresh m hm).mono hsequel fun _ _ _ => hstays _
    · exact ht.fresh_letter here step hm (getElem?_modify_self hmodify here) (hstays _)
  · rw [hletters]
    refine List.pairwise_append.2 ⟨ht.ordered, ?_, fun a ha m hm => ?_⟩
    · cases c.link.letter? i e with
      | none => exact List.Pairwise.nil
      | some m => exact List.pairwise_singleton _ _
    · exact ht.precedes_letter here step (Option.mem_toList.1 hm) ha
  · intro l hl
    rw [hloads] at hl
    rw [hconnections, List.length_set]
    exact ht.read l hl

end Act

/-! ### The hub acts -/

section Handle

variable {letters : List Letter} {f : Connection → Connection}

theorem mem_of_first (first : p.letters = m :: letters) : m ∈ p.letters := by
  rw [first]
  exact List.mem_cons_self

theorem Tidy.sender_lt (ht : p.Tidy) (hm : m ∈ p.letters) :
    m.sender < p.connections.length := by
  cases m with
  | errand i e =>
    obtain ⟨c, hc, -⟩ := ht.fresh _ hm
    exact (List.getElem?_eq_some_iff.1 hc).1
  | farewell i id =>
    obtain ⟨c, hc, -⟩ := ht.fresh _ hm
    exact (List.getElem?_eq_some_iff.1 hc).1

theorem Tidy.sender_of_moves (ht : p.Tidy) (hm : m ∈ p.letters)
    (hc : p.connections[j]? = some c) (h : m.request.moves? = some c.link.session) :
    j = m.sender := by
  cases m with
  | errand i e =>
    obtain ⟨d, hd, -, planned, -⟩ := ht.fresh _ hm
    exact ht.eq_of_session hc hd (planned.moves h)
  | farewell i id =>
    obtain ⟨d, hd, hsession, -⟩ := ht.fresh _ hm
    cases h
    exact ht.eq_of_session hc hd hsession.symm

theorem Tidy.allows_letter (ht : p.Tidy) (hm : m ∈ p.letters) :
    p.hub.allows (.request m.request) := by
  cases m with
  | errand i e =>
    obtain ⟨c, -, -, planned, -⟩ := ht.fresh _ hm
    exact planned.allows p.hub
  | farewell => rfl

theorem Tidy.stays_letter (ht : p.Tidy) (hm : m ∈ p.letters) (hc : p.connections[j]? = some c)
    (h : j ≠ m.sender ∨ m.request.answered = false) :
    p.hub.Stays (p.hub.handle m.request).2 c.link.session := by
  refine Hub.stays_of_step (ht.allows_letter hm) fun hmoves => ?_
  rcases h with hj | ha
  · exact hj (ht.sender_of_moves hm hc hmoves)
  · rw [Request.answered_of_moves? hmoves] at ha
    cases ha

theorem Tidy.admitted_letter (ht : p.Tidy) (hm : m ∈ p.letters)
    (hc : p.connections[m.sender]? = some c) (hd : c.link.departure = .pending) :
    c.link.session ∈ (p.hub.handle m.request).2.admitted := by
  have hs := Hub.ledger_step (ht.allows_letter hm)
  refine hs.mem_admitted (fun he => ?_) ((ht.tended hc).admitted hd)
  have hr : m.request = .leave c.link.session := Hub.Event.request.inj he
  cases m with
  | errand i e =>
    obtain ⟨d, -, -, planned, -⟩ := ht.fresh _ hm
    exact planned.ne_leave hr
  | farewell i id =>
    obtain ⟨d, hd', -, hdep⟩ := ht.fresh _ hm
    rw [show (Letter.farewell i id).sender = i from rfl, hd'] at hc
    cases hc
    exact hdep hd

theorem Tidy.handled (ht : p.Tidy) (first : p.letters = m :: letters)
    (hhub : q.hub = (p.hub.handle m.request).2) (hletters : q.letters = letters)
    (hq : q.connections = p.connections.modify m.sender f) (hf : ∀ c, (f c).link = c.link)
    (habroad : ∀ j, j ≠ m.sender → q.abroad j ≤ p.abroad j)
    (hread : ∀ l ∈ q.loads, l.connection < p.connections.length ∧
      ∃ id limit, l.request = .history id limit)
    (self : ∀ c, p.connections[m.sender]? = some c → (f c).Tended q.hub (q.abroad m.sender)) :
    q.Tidy := by
  have hm := mem_of_first first
  have hsequel : p.Sequel q := sequel_modify hq fun c _ => by
    rw [hf c]
    exact ⟨rfl, fun h => h⟩
  have hordered := ht.ordered
  rw [first, List.pairwise_cons] at hordered
  refine ⟨?_, ?_, ?_, ?_, ?_, ?_⟩
  · rw [hhub]
    exact ht.grounded.step (Hub.ledger_step (ht.allows_letter hm))
  · rw [hsequel.sessions]
    exact ht.apart
  · refine tended_modify ht hq (fun j c hj hc => ⟨?_, habroad j hj⟩) self
    rw [hhub]
    exact ht.stays_letter hm hc (.inl hj)
  · intro a ha
    rw [hletters] at ha
    have ha' : a ∈ p.letters := by
      rw [first]
      exact List.mem_cons_of_mem m ha
    refine (ht.fresh a ha').mono hsequel fun hfinal c hc => ?_
    rw [hhub]
    refine ht.stays_letter hm hc ?_
    -- after a letter that is answered its sender only bids farewell; any other moves nobody
    by_cases hsender : m.sender = a.sender
    · refine .inr (eq_false_of_ne_true fun hanswered => ?_)
      rw [(hordered.1 a ha hsender hanswered).2] at hfinal
      cases hfinal
    · exact .inl (Ne.symm hsender)
  · rw [hletters]
    exact hordered.2
  · intro l hl
    rw [hq, List.length_modify]
    exact hread l hl

theorem Tidy.parted (ht : p.Tidy) (hm : m ∈ p.letters) (hc : p.connections[m.sender]? = some c)
    {e : Errand} (hw : c.link.reader = .waiting e) (hr : e.request = m.request)
    (hl : e.command = .leave) : (p.hub.handle m.request).1 = .ok .done ∨
      (p.hub.handle m.request).1 = .error .shuttingDown := by
  obtain ⟨name, -, hleave⟩ := ((ht.tended hc).waiting hw).1.leaves hl
  rw [hr] at hleave
  cases m with
  | errand i errand =>
    obtain ⟨d, hd, ha, planned, room⟩ := ht.fresh _ hm
    rw [show (Letter.errand i errand).sender = i from rfl, hd] at hc
    cases hc
    have hrequest : errand.request = .leaveRoom c.link.session name := hleave
    obtain ⟨s, hs⟩ := Hub.exists_session_of_mem ht.grounded ha
    have hroom := room (by rw [hrequest]; rfl)
    rw [Hub.profile_of_session hs, planned.room_of_leaveRoom hrequest] at hroom
    rw [show (Letter.errand i errand).request = errand.request from rfl, hrequest]
    exact Hub.answer_leaveRoom hs hroom.symm
  | farewell => cases hleave

theorem Tidy.delivered (ht : p.Tidy) (first : p.letters = m :: letters)
    (hhub : q.hub = (p.hub.handle m.request).2) (hletters : q.letters = letters)
    (hloads : q.loads = p.loads) (hq : q.connections = p.connections.modify m.sender f)
    (hf : ∀ c, (f c).link = c.link)
    (heard : ∀ c n, p.connections[m.sender]? = some c → c.Tended p.hub (n + 1) →
      (f c).Tended q.hub n)
    (unheard : ∀ c n, c.Tended p.hub n → m.request.answered = false → f c = c) : q.Tidy := by
  have hm := mem_of_first first
  have habroad := abroad_cons first hletters hloads
  refine ht.handled first hhub hletters hq hf (fun j _ => ?_) ?_ fun c hc => ?_
  · rw [habroad]
    exact Nat.le_add_right _ _
  · rw [hloads]
    exact ht.read
  · have htended := ht.tended hc
    rw [habroad] at htended
    cases hanswered : m.request.answered with
    | true =>
      rw [if_pos (owes_iff.2 ⟨rfl, hanswered⟩)] at htended
      exact heard c _ hc htended
    | false =>
      have hstays := ht.stays_letter hm hc (.inr hanswered)
      rw [← hhub] at hstays
      rw [unheard c _ htended hanswered]
      exact htended.mono hstays (Nat.le_add_right _ _) rfl rfl rfl rfl

theorem Tidy.serve (ht : p.Tidy) (first : p.letters = m :: letters) : Tidy { p with
    hub := (p.hub.handle m.request).2
    connections := p.connections.modify m.sender (·.hear m.request (p.hub.handle m.request).1)
    letters } := by
  have hm := mem_of_first first
  refine ht.delivered first rfl rfl rfl rfl (fun c => c.link_hear _ _) (fun c n hc htended => ?_)
    fun c n htended hanswered => htended.hear_unanswered hanswered _
  exact htended.hear (ht.admitted_letter hm hc) fun e hw hr hl => ht.parted hm hc hw hr hl

theorem Tidy.neglect (ht : p.Tidy) (first : p.letters = m :: letters) :
    Tidy { p with hub := (p.hub.handle m.request).2, letters } := by
  have hm := mem_of_first first
  refine ht.delivered first rfl rfl rfl (List.modify_id ..).symm (fun _ => rfl)
    (fun c n hc htended => ?_) fun _ _ _ _ => rfl
  exact htended.recede (ht.admitted_letter hm hc) (Nat.le_succ n)

theorem Tidy.look (ht : p.Tidy) (first : p.letters = m :: letters) {limit : Nat} {answer : Answer}
    (history : m.request = .history id limit) : Tidy { p with
      hub := (p.hub.handle m.request).2
      letters
      loads := p.loads ++ [⟨m.sender, m.request, answer⟩] } := by
  have hm := mem_of_first first
  have hanswered : m.request.answered := by
    rw [history]
    rfl
  have habroad := abroad_look (q := { p with
    hub := (p.hub.handle m.request).2
    letters
    loads := p.loads ++ [⟨m.sender, m.request, answer⟩] }) first hanswered rfl rfl
  refine ht.handled first rfl rfl (List.modify_id ..).symm (fun _ => rfl)
    (fun j _ => (habroad j).ge) (fun l hl => ?_) fun c hc => ?_
  · rcases List.mem_append.1 hl with hl | hl
    · exact ht.read l hl
    · rw [List.mem_singleton.1 hl]
      exact ⟨ht.sender_lt hm, id, limit, history⟩
  · have htended := ht.tended hc
    have hpos := abroad_pos hm (owes_iff.2 ⟨rfl, hanswered⟩)
    rw [← Nat.sub_add_cancel hpos] at htended
    refine htended.recede (ht.admitted_letter hm hc) ?_
    rw [Nat.sub_add_cancel hpos, habroad]

end Handle

/-! ### What else happens -/

theorem Tidy.unmoved (ht : p.Tidy) (hg : q.hub.ledger.Grounded) (hpq : p.Sequel q)
    (stays : ∀ {i : Nat} {c : Connection}, p.connections[i]? = some c →
      p.hub.Stays q.hub c.link.session)
    (tended : ∀ {i : Nat} {c : Connection}, q.connections[i]? = some c →
      c.Tended q.hub (q.abroad i))
    (hletters : q.letters = p.letters) (hloads : ∀ l ∈ q.loads, l ∈ p.loads) : q.Tidy where
  grounded := hg
  apart := by
    rw [hpq.sessions]
    exact ht.apart
  tended := tended
  fresh m hm := by
    rw [hletters] at hm
    exact (ht.fresh m hm).mono hpq fun _ _ hc => stays hc
  ordered := by
    rw [hletters]
    exact ht.ordered
  read l hl := by
    have hlength : q.connections.length = p.connections.length := by
      have hsessions := congrArg List.length hpq.sessions
      rwa [sessions, sessions, List.length_map, List.length_map] at hsessions
    rw [hlength]
    exact ht.read l (hloads l hl)

theorem Tidy.retrieve (ht : p.Tidy) {n : Nat} {load : Load} (there : p.loads[n]? = some load) :
    Tidy { p with
      connections := p.connections.modify load.connection (·.hear load.request (.ok load.answer))
      loads := p.loads.eraseIdx n } := by
  have hload := List.mem_of_getElem? there
  obtain ⟨-, id, limit, history⟩ := ht.read load hload
  have hstays : ∀ i, p.hub.Stays p.hub i := .refl p.hub
  have habroad := abroad_eraseIdx (q := { p with
    connections := p.connections.modify load.connection (·.hear load.request (.ok load.answer))
    loads := p.loads.eraseIdx n }) there rfl rfl
  refine ht.unmoved ht.grounded (sequel_modify rfl fun c _ => ?_) (fun _ => hstays _) ?_ rfl
    fun l hl => List.mem_of_mem_eraseIdx hl
  · rw [c.link_hear]
    exact ⟨rfl, fun h => h⟩
  · refine tended_modify ht rfl (fun j c _ _ => ⟨hstays _, ?_⟩) fun c hc => ?_
    · rw [habroad]
      exact Nat.le_add_right _ _
    · have htended := ht.tended hc
      rw [habroad, beq_self_eq_true, if_pos rfl] at htended
      refine htended.hear (ht.tended hc).admitted fun e hw hr hl => ?_
      -- who waits to have left a room does not wait for lines
      obtain ⟨name, -, hleave⟩ := (htended.waiting hw).1.leaves hl
      rw [hr, history] at hleave
      cases hleave

theorem Tidy.rewire (ht : p.Tidy) (i : Nat) (f : Wire → Wire) :
    Tidy { p with connections := p.connections.modify i fun c => { c with wire := f c.wire } } := by
  have hstays : ∀ i, p.hub.Stays p.hub i := .refl p.hub
  refine ht.unmoved ht.grounded (sequel_modify rfl fun c _ => ⟨rfl, fun h => h⟩)
    (fun _ => hstays _) ?_ rfl fun l hl => hl
  refine tended_modify ht rfl (fun j c _ _ => ⟨hstays _, Nat.le_refl _⟩) fun c hc => ?_
  exact (ht.tended hc).mono (hstays _) (Nat.le_refl _) rfl rfl rfl rfl

theorem Tidy.outside (ht : p.Tidy) {e : Hub.Event} (allowed : p.hub.allows e)
    (others : ∀ id, e.moves? = some id → p.drives id = false) :
    Tidy { p with hub := p.hub.step e } := by
  have hstays : ∀ {i : Nat} {c : Connection}, p.connections[i]? = some c →
      p.hub.Stays (p.hub.step e) c.link.session := by
    intro i c hc
    refine Hub.stays_of_step allowed fun hmoves => ?_
    have hdrives := drives_iff.2 ⟨i, c, hc, rfl⟩
    rw [others _ hmoves] at hdrives
    cases hdrives
  refine ht.unmoved (ht.grounded.step (Hub.ledger_step allowed)) ⟨rfl, fun hc => ?_⟩ hstays
    (fun hc => ?_) rfl fun l hl => hl
  · exact ⟨_, hc, rfl, fun h => h⟩
  · exact (ht.tended hc).mono (hstays hc) (Nat.le_refl _) rfl rfl rfl rfl

theorem Tidy.abroad_length (ht : p.Tidy) : p.abroad p.connections.length = 0 := by
  rw [abroad, Nat.add_eq_zero_iff]
  refine ⟨List.countP_eq_zero.2 fun m hm ho => ?_, List.countP_eq_zero.2 fun l hl ho => ?_⟩
  · exact Nat.ne_of_lt (ht.sender_lt hm) (owes_iff.1 ho).1
  · exact Nat.ne_of_lt (ht.read l hl).1 (beq_iff_eq.1 ho)

theorem Tidy.drive (ht : p.Tidy) (wire : Wire) (admitted : id ∈ p.hub.admitted)
    (new : p.drives id = false) :
    Tidy { p with connections := p.connections ++ [.start id wire] } := by
  have hold : ∀ {i : Nat} {c : Connection}, p.connections[i]? = some c →
      (p.connections ++ [.start id wire])[i]? = some c := by
    intro i c hc
    rw [List.getElem?_append_left (List.getElem?_eq_some_iff.1 hc).1]
    exact hc
  refine ⟨ht.grounded, ?_, ?_, ?_, ht.ordered, ?_⟩
  · rw [sessions, List.map_append, List.nodup_append]
    refine ⟨ht.apart, List.nodup_singleton _, fun a ha b hb hab => ?_⟩
    obtain ⟨c, hc, rfl⟩ := List.mem_map.1 ha
    obtain ⟨i, hi⟩ := List.mem_iff_getElem?.1 hc
    have hid : c.link.session = id := hab.trans (List.mem_singleton.1 hb)
    have hdrives := drives_iff.2 ⟨i, c, hi, hid⟩
    rw [new] at hdrives
    cases hdrives
  · intro i c hc
    dsimp only at hc
    rw [List.getElem?_append] at hc
    split at hc
    · exact ht.tended hc
    · next hi =>
      obtain ⟨hlt, rfl⟩ := List.getElem?_eq_some_iff.1 hc
      rw [List.length_singleton] at hlt
      have hlast : i = p.connections.length := by omega
      have habroad : Post.abroad { p with connections := p.connections ++ [.start id wire] } i =
          0 := by
        rw [hlast]
        exact ht.abroad_length
      rw [habroad, List.getElem_singleton]
      exact .receptive (.inl rfl) rfl rfl admitted
  · intro m hm
    have hm := ht.fresh m hm
    cases m with
    | errand i e =>
      obtain ⟨c, hc, h⟩ := hm
      exact ⟨c, hold hc, h⟩
    | farewell i id =>
      obtain ⟨c, hc, h⟩ := hm
      exact ⟨c, hold hc, h⟩
  · intro l hl
    rw [List.length_append]
    exact ⟨Nat.lt_add_right _ (ht.read l hl).1, (ht.read l hl).2⟩

theorem Tidy.step (ht : p.Tidy) (hs : p.Step q) : q.Tidy := by
  cases hs with
  | rest => exact ht
  | rewire i f => exact ht.rewire i f
  | act here session step answered => exact ht.act here session step answered rfl rfl rfl rfl
  | serve first => exact ht.serve first
  | neglect first => exact ht.neglect first
  | look first history => exact ht.look first history
  | retrieve there => exact ht.retrieve there
  | outside allowed others => exact ht.outside allowed others
  | drive wire admitted new => exact ht.drive wire admitted new

end Post
end ChatRelay

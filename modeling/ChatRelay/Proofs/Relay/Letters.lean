import ChatRelay.Proofs.Link.Step
import ChatRelay.Proofs.Run
import ChatRelay.Relay.Basic

/-! What is on its way between the drivers of a relay and its hub. Drivers, hub, clients and
everybody else act in any order, one at a time. A letter is a request in the mailbox together with
what its sender knew when it was written. -/

namespace ChatRelay

inductive Letter
  | errand (sender : Nat) (errand : Errand)
  | farewell (sender : Nat) (id : SessionId)
  deriving DecidableEq, Repr

namespace Letter

def sender : Letter → Nat
  | errand i _ | farewell i _ => i

def request : Letter → Request
  | errand _ e => e.request
  | farewell _ id => .leave id

def posted (m : Letter) : Nat × Request := (m.sender, m.request)

end Letter

def Request.moves? : Request → Option SessionId
  | .joinRoom id _ | .leaveRoom id _ | .leave id => some id
  | _ => none

def Hub.Event.moves? : Hub.Event → Option SessionId
  | .request r => r.moves?
  | _ => none

namespace Link

def letter? (l : Link) (i : Nat) : Event → Option Letter
  | .accepted =>
    match l.reader with
    | .posting errand => some (.errand i errand)
    | _ => none
  | .leave => some (.farewell i l.session)
  | _ => none

variable {l : Link} {i : Nat} {e : Event} {m : Letter}

theorem submission_eq (l : Link) (i : Nat) (e : Event) :
    l.submission e = (l.letter? i e).map Letter.request := by
  cases e with
  | accepted =>
    simp only [submission, letter?]
    cases l.reader <;> rfl
  | _ => rfl

theorem sender_of_letter? (h : l.letter? i e = some m) : m.sender = i := by
  unfold letter? at h
  split at h
  · split at h
    · cases h
      rfl
    · cases h
  · cases h
    rfl
  · cases h

end Link

namespace Hub

theorem eq_done_of_attempt {h : Hub} {result : Except Fault Hub} {answer : Answer}
    (ha : (h.attempt result).1 = .ok answer) : answer = .done := by
  cases result with
  | ok _ =>
    cases ha
    rfl
  | error _ => cases ha

theorem eq_history_of_answer {h : Hub} {request : Request} {scope : Option String}
    {lines : List String} (ha : (h.handle request).1 = .ok (.history scope lines)) :
    ∃ id limit, request = .history id limit := by
  cases request with
  | history id limit => exact ⟨id, limit, rfl⟩
  | join | register | leaveRoom | whisper => cases eq_done_of_attempt ha
  | joinRoom id room =>
    simp only [handle] at ha
    cases hr : (h.joinRoom id room).1 with
    | ok roster =>
      rw [hr] at ha
      cases ha
    | error fault =>
      rw [hr] at ha
      cases ha
  | leave | broadcast | broadcastIn | chat | users | status | shutDown => cases ha

end Hub

def Connection.hear (c : Connection) (request : Request) (answer : Except Fault Answer) :
    Connection :=
  if c.expects request then { c with answer := some answer } else c

/-- A hub, its connections, and what is under way between them. -/
structure Post where
  hub : Hub
  connections : List Connection
  letters : List Letter
  loads : List Load

structure Traffic where
  relay : Relay
  letters : List Letter

inductive Traffic.Moment
  | act (i : Nat) (side : Relay.Side)
  | serve
  | retrieve (n : Nat)
  | outside (e : Hub.Event)
  | drive (id : SessionId) (wire : Wire)
  | client (i : Nat) (f : Wire → Wire)
  | pass (ms : Nat)

namespace Post

def drives (p : Post) (id : SessionId) : Bool := p.connections.any (·.link.session == id)

inductive Step (p : Post) : Post → Prop
  | rest : Step p p
  | rewire (i : Nat) (f : Wire → Wire) :
      Step p { p with connections := p.connections.modify i fun c => { c with wire := f c.wire } }
  | act {i : Nat} {c : Connection} {s s' : Session} {now : Nat} {e : Link.Event} {link : Link}
      (here : p.connections[i]? = some c) (session : p.hub.pool.get? c.link.session = some s)
      (step : c.link.Step s now e link s') (answered : ∀ a, e = .answered a → c.answer = some a) :
      Step p { p with
        hub := p.hub.update c.link.session fun _ => s'
        connections := p.connections.set i (c.absorb link e)
        letters := p.letters ++ (c.link.letter? i e).toList }
  | serve {m : Letter} {letters : List Letter} (first : p.letters = m :: letters) :
      Step p { p with
        hub := (p.hub.handle m.request).2
        connections :=
          p.connections.modify m.sender (·.hear m.request (p.hub.handle m.request).1)
        letters }
  | neglect {m : Letter} {letters : List Letter} (first : p.letters = m :: letters) :
      Step p { p with hub := (p.hub.handle m.request).2, letters }
  | look {m : Letter} {letters : List Letter} {id : SessionId} {limit : Nat} {answer : Answer}
      (first : p.letters = m :: letters) (history : m.request = .history id limit) :
      Step p { p with
        hub := (p.hub.handle m.request).2
        letters
        loads := p.loads ++ [⟨m.sender, m.request, answer⟩] }
  | retrieve {n : Nat} {load : Load} (there : p.loads[n]? = some load) :
      Step p { p with
        connections :=
          p.connections.modify load.connection (·.hear load.request (.ok load.answer))
        loads := p.loads.eraseIdx n }
  | outside {e : Hub.Event} (allowed : p.hub.allows e)
      (others : ∀ id, e.moves? = some id → p.drives id = false) :
      Step p { p with hub := p.hub.step e }
  | drive {id : SessionId} (wire : Wire) (admitted : id ∈ p.hub.admitted)
      (new : p.drives id = false) :
      Step p { p with connections := p.connections ++ [.start id wire] }

end Post

namespace Connection

variable {c : Connection} {s : Session} {now : Nat} {vacancy : Bool} {a : Except Fault Answer}

theorem nextRead_answered (h : c.nextRead s now vacancy = some (.event (.answered a))) :
    c.answer = some a := by
  unfold nextRead nextInput at h
  grind [Option.map_eq_some_iff]

theorem nextWrite_ne_answered : c.nextWrite s now ≠ some (.event (.answered a)) := by
  unfold nextWrite
  grind [Option.map_eq_some_iff]

theorem nextLeave_ne_answered : c.nextLeave vacancy ≠ some (.event (.answered a)) := by
  unfold nextLeave
  grind [Option.map_eq_some_iff]

end Connection

namespace Relay

variable {r : Relay} {i : Nat} {side : Side} {c : Connection}

theorem answer_of_next? {a : Except Fault Answer}
    (h : r.next? i side = some (.event (.answered a))) (here : r.connections[i]? = some c) :
    c.answer = some a := by
  simp only [next?, here, Option.bind_eq_bind, Option.bind_some] at h
  obtain ⟨s, -, h⟩ := Option.bind_eq_some_iff.1 h
  cases side with
  | read => exact Connection.nextRead_answered h
  | write => exact absurd h Connection.nextWrite_ne_answered
  | leave => exact absurd h Connection.nextLeave_ne_answered

/-! ### Whose turn it is -/

theorem wake_eq (r : Relay) (party : Party) :
    r.wake party = { r with ready := (r.wake party).ready } := by
  unfold wake
  split <;> rfl

theorem rouse_eq (r : Relay) : r.rouse = { r with ready := r.rouse.ready } := by
  unfold rouse
  induction List.range r.connections.length using List.reverseRecOn with
  | nil => rfl
  | append_singleton places i ih =>
    rw [List.foldl_append, List.foldl_cons, List.foldl_nil]
    split
    · rw [wake_eq, ih]
    · exact ih

theorem submit_eq (r : Relay) (i : Nat) (request : Option Request) :
    r.submit i request =
      { r with
        mailbox := r.mailbox ++ (request.map (i, ·)).toList
        ready := (r.submit i request).ready } := by
  cases request with
  | none =>
    unfold submit
    rw [Option.map_none, Option.toList_none, List.append_nil]
  | some request =>
    simp only [submit]
    rw [wake_eq]
    rfl

def letter? (r : Relay) (i : Nat) : Move → Option Letter
  | .fetch => none
  | .event e => do
    let c ← r.connections[i]?
    let s ← r.hub.pool.get? c.link.session
    let _ ← c.link.step s r.now e
    c.link.letter? i e

end Relay

namespace Traffic

open Relay (rouse_eq submit_eq wake_eq)

def start (limits : Limits) (archive : Option Archive) (stamp : String) : Traffic :=
  ⟨.start limits archive stamp, []⟩

def post (t : Traffic) : Post where
  hub := t.relay.hub
  connections := t.relay.connections
  letters := t.letters
  loads := t.relay.loads

/-- What a moment makes of the traffic, if it can come. A session that joined is driven once, and
nobody but its driver asks the hub to move it. -/
def next (t : Traffic) : Moment → Option Traffic
  | .act i side => (t.relay.next? i side).map fun move =>
    ⟨t.relay.move i move, t.letters ++ (t.relay.letter? i move).toList⟩
  | .serve => some ⟨t.relay.serveNext, t.letters.tail⟩
  | .retrieve n => t.relay.loads[n]?.map fun load =>
    let r := { t.relay with loads := t.relay.loads.eraseIdx n }
    ⟨(r.deliver load.connection load.request (.ok load.answer)).rouse, t.letters⟩
  | .outside e =>
    if t.relay.hub.allows e && e.moves?.all (!t.post.drives ·) then
      some { t with relay.hub := t.relay.hub.step e }
    else none
  | .drive id wire =>
    if t.relay.hub.admitted.contains id && !t.post.drives id then
      some { t with relay.connections := t.relay.connections ++ [.start id wire] }
    else none
  | .client i f =>
    some { t with relay := t.relay.modify i fun c => { c with wire := f c.wire } }
  | .pass ms => some { t with relay.now := t.relay.now + ms }

def run (t : Traffic) : List Moment → Option Traffic
  | [] => some t
  | m :: ms => (t.next m).bind (·.run ms)

def Matched (t : Traffic) : Prop := t.relay.mailbox = t.letters.map Letter.posted

variable {t t' : Traffic} {m : Moment} {ms : List Moment}

/-! ### What a moment does -/

def Passes (t t' : Traffic) : Prop := t.post.Step t'.post ∧ t'.Matched

theorem Passes.rouse {r : Relay} {letters : List Letter} (h : t.Passes ⟨r, letters⟩) :
    t.Passes ⟨r.rouse, letters⟩ := by
  rw [rouse_eq]
  exact h

theorem passes_perform (ht : t.Matched) {i : Nat} {e : Link.Event}
    (answered : ∀ c a, t.relay.connections[i]? = some c → e = .answered a → c.answer = some a) :
    t.Passes ⟨t.relay.perform i e, t.letters ++ (t.relay.letter? i (.event e)).toList⟩ := by
  have hrest : t.Passes ⟨t.relay, t.letters ++ (none : Option Letter).toList⟩ := by
    rw [Option.toList_none, List.append_nil]
    exact ⟨.rest, ht⟩
  unfold Relay.perform Relay.letter?
  cases hc : t.relay.connections[i]? with
  | none => exact hrest
  | some c =>
    dsimp only [Option.bind_eq_bind, Option.bind_some]
    cases hs : t.relay.hub.pool.get? c.link.session with
    | none => exact hrest
    | some s =>
      dsimp only [Option.bind_some]
      cases hl : c.link.step s t.relay.now e with
      | none => exact hrest
      | some after =>
        obtain ⟨link, s'⟩ := after
        dsimp only [Option.bind_some]
        rw [submit_eq]
        refine ⟨.act hc hs (Link.step_of_eq_some hl) fun a => answered c a hc, ?_⟩
        have hsubmit : ((c.link.submission e).map (i, ·)).toList =
            (c.link.letter? i e).toList.map Letter.posted := by
          rw [Link.submission_eq c.link i]
          cases hm : c.link.letter? i e with
          | none => rfl
          | some m =>
            rw [← Link.sender_of_letter? hm]
            rfl
        unfold Matched
        dsimp only
        rw [hsubmit, List.map_append, ht]

theorem passes_act (ht : t.Matched) {i : Nat} {side : Relay.Side} {move : Move}
    (hm : t.relay.next? i side = some move) :
    t.Passes ⟨t.relay.move i move, t.letters ++ (t.relay.letter? i move).toList⟩ := by
  cases move with
  | fetch =>
    simp only [Relay.letter?, Option.toList_none, List.append_nil]
    exact ⟨.rewire i Wire.fetch, ht⟩
  | event e =>
    refine passes_perform ht fun c a hc he => ?_
    subst he
    exact Relay.answer_of_next? hm hc

theorem passes_serve (ht : t.Matched) : t.Passes ⟨t.relay.serveNext, t.letters.tail⟩ := by
  unfold Relay.serveNext
  cases hl : t.letters with
  | nil =>
    have hempty : t.relay.mailbox = [] := by rw [ht, hl, List.map_nil]
    rw [hempty, List.tail_nil, ← hl]
    exact ⟨.rest, ht⟩
  | cons m letters =>
    have hmail : t.relay.mailbox = m.posted :: letters.map Letter.posted := by
      rw [ht, hl, List.map_cons]
    rw [hmail, List.tail_cons]
    dsimp only [Letter.posted]
    have hmatched : Matched ⟨{ t.relay with
        hub := (t.relay.hub.handle m.request).2
        mailbox := letters.map Letter.posted }, letters⟩ := rfl
    refine Passes.rouse ?_
    unfold Relay.respond
    split
    · next scope lines ha =>
      obtain ⟨id, limit, hr⟩ := Hub.eq_history_of_answer ha
      split
      · rw [wake_eq]
        exact ⟨.look hl hr, hmatched⟩
      · exact ⟨.neglect hl, hmatched⟩
    · exact ⟨.serve hl, hmatched⟩

theorem passes_retrieve (ht : t.Matched) {n : Nat} {load : Load}
    (there : t.relay.loads[n]? = some load) :
    t.Passes ⟨(({ t.relay with loads := t.relay.loads.eraseIdx n } : Relay).deliver
      load.connection load.request (.ok load.answer)).rouse, t.letters⟩ :=
  Passes.rouse ⟨.retrieve there, ht⟩

theorem passes_of_next (ht : t.Matched) (h : t.next m = some t') : t.Passes t' := by
  cases m with
  | act i side =>
    obtain ⟨move, hm, rfl⟩ := Option.map_eq_some_iff.1 h
    exact passes_act ht hm
  | serve =>
    cases h
    exact passes_serve ht
  | retrieve n =>
    obtain ⟨load, there, rfl⟩ := Option.map_eq_some_iff.1 h
    exact passes_retrieve ht there
  | outside e =>
    obtain ⟨hc, h⟩ := Option.ite_none_right_eq_some.1 h
    rw [Bool.and_eq_true] at hc
    cases h
    refine ⟨.outside hc.1 fun id hid => ?_, ht⟩
    simpa [hid] using hc.2
  | drive id wire =>
    obtain ⟨hc, h⟩ := Option.ite_none_right_eq_some.1 h
    rw [Bool.and_eq_true, Bool.not_eq_true'] at hc
    cases h
    exact ⟨.drive wire (List.contains_iff_mem.1 hc.1) hc.2, ht⟩
  | client i f =>
    cases h
    exact ⟨.rewire i f, ht⟩
  | pass ms =>
    cases h
    exact ⟨.rest, ht⟩

theorem run_induction {P : Post → Prop} (hstep : ∀ {p q}, p.Step q → P p → P q)
    (hr : t.run ms = some t') (ht : t.Matched) (h0 : P t.post) : t'.Matched ∧ P t'.post := by
  induction ms generalizing t with
  | nil =>
    cases hr
    exact ⟨ht, h0⟩
  | cons m ms ih =>
    obtain ⟨t₁, hn, hr⟩ := Option.bind_eq_some_iff.1 hr
    obtain ⟨hs, ht₁⟩ := passes_of_next ht hn
    exact ih hr ht₁ (hstep hs h0)

end Traffic
end ChatRelay

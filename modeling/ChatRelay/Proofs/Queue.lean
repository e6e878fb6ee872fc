import ChatRelay.Session

/-! What can be relied on of a session's queue. Several parties queue items, one takes them, and
anybody may stop the session at any time: what was taken and what is left is what was accepted, in
the order of the calls. -/

namespace ChatRelay
namespace Session

inductive Call
  | deliver (text : String)
  | send (message : Message)
  | closeAfterFlush
  | stop
  | take
  deriving DecidableEq, Repr

def Call.item? : Call → Option Outgoing
  | deliver text => some (.text text)
  | send message => some (.text message.text)
  | closeAfterFlush => some .close
  | stop | take => none

/-- What comes of a call. Who asks for the close marker is not told whether it was queued. -/
inductive Outcome
  | accepted
  | refused (fault : SendFault)
  | stopped
  | took (item? : Option Outgoing)
  deriving DecidableEq, Repr

def post (s : Session) (text : String) : Outcome × Session :=
  match s.deliver text with
  | .ok s' => (.accepted, s')
  | .error fault => (.refused fault, s)

def perform (s : Session) : Call → Outcome × Session
  | .deliver text => s.post text
  | .send message => s.post message.text
  | .closeAfterFlush =>
    (if (s.outbox.push .close).toBool then .accepted else .stopped, s.closeAfterFlush)
  | .stop => (.stopped, s.stop)
  | .take =>
    match s.outbox.take? with
    | some (item, outbox) => (.took (some item), { s with outbox })
    | none => (.took none, s)

def withItem (s : Session) (item : Outgoing) : Session :=
  { s with outbox := { s.outbox with items := s.outbox.items ++ [item] } }

inductive Served (limit : Nat) (s : Session) (c : Call) : Outcome → Session → Prop
  | accepted {text : String} (asks : c.item? = some (.text text)) (running : s.stopped = false)
      (space : s.outbox.items.length < limit) : Served limit s c .accepted (s.withItem (.text text))
  | full {text : String} (asks : c.item? = some (.text text)) (running : s.stopped = false)
      (full : s.outbox.items.length = limit) : Served limit s c (.refused .queueFull) s
  | closed {text : String} (asks : c.item? = some (.text text)) (stopped : s.stopped) :
      Served limit s c (.refused .channelClosed) s
  | marked (asks : c = .closeAfterFlush) (space : s.outbox.items.length < limit) :
      Served limit s c .accepted (s.withItem .close)
  | overrun (asks : c = .closeAfterFlush) (full : s.outbox.items.length = limit) :
      Served limit s c .stopped s.stop
  | stop (asks : c = .stop) : Served limit s c .stopped s.stop
  | took {item : Outgoing} {rest : List Outgoing} (asks : c = .take)
      (first : s.outbox.items = item :: rest) :
      Served limit s c (.took (some item)) { s with outbox := { s.outbox with items := rest } }
  | idle (asks : c = .take) (empty : s.outbox.items = []) : Served limit s c (.took none) s

structure Sound (limit : Nat) (s : Session) : Prop where
  capacity : s.outbox.capacity = limit
  receiving : s.outbox.intake = .open
  bounded : s.outbox.items.length ≤ limit

variable {limit : Nat} {s s' : Session} {c : Call} {o : Outcome} {text : String}

theorem Sound.push_cases (hs : s.Sound limit) (item : Outgoing) :
    (s.outbox.items.length < limit ∧ s.outbox.push item = .ok (s.withItem item).outbox) ∨
      (s.outbox.items.length = limit ∧ s.outbox.push item = .error .queueFull) := by
  obtain ⟨rfl, hopen, hbound⟩ := hs
  rcases Nat.lt_or_eq_of_le hbound with space | full
  · exact .inl ⟨space, Outbox.push_eq_ok_iff.2 ⟨hopen, space, rfl⟩⟩
  · exact .inr ⟨full, Outbox.push_eq_queueFull_iff.2 ⟨hopen, Nat.le_of_eq full.symm⟩⟩

theorem Sound.served_post (hs : s.Sound limit) (asks : c.item? = some (.text text)) :
    Served limit s c (s.post text).1 (s.post text).2 := by
  by_cases stopped : s.stopped
  · rw [post, deliver_of_stopped stopped]
    exact .closed asks stopped
  · have running : s.stopped = false := Bool.not_eq_true _ ▸ stopped
    have hdeliver : s.deliver text =
        (s.outbox.push (.text text)).map fun outbox => { s with outbox } := if_neg stopped
    rcases hs.push_cases (.text text) with ⟨space, hpush⟩ | ⟨full, hpush⟩
    · rw [post, hdeliver, hpush]
      exact .accepted asks running space
    · rw [post, hdeliver, hpush]
      exact .full asks running full

theorem Sound.served (hs : s.Sound limit) (c : Call) :
    Served limit s c (s.perform c).1 (s.perform c).2 := by
  cases c with
  | deliver text => exact hs.served_post rfl
  | send message => exact hs.served_post rfl
  | closeAfterFlush =>
    rcases hs.push_cases .close with ⟨space, hpush⟩ | ⟨full, hpush⟩
    · rw [perform, closeAfterFlush, hpush]
      exact .marked rfl space
    · rw [perform, closeAfterFlush, hpush]
      exact .overrun rfl full
  | stop => exact .stop rfl
  | take =>
    rw [perform, Outbox.take?]
    cases hitems : s.outbox.items with
    | nil => exact .idle rfl hitems
    | cons item rest => exact .took rfl hitems

namespace Served

theorem sound (h : Served limit s c o s') (hs : s.Sound limit) : s'.Sound limit := by
  obtain ⟨hcapacity, hopen, hbound⟩ := hs
  cases h with
  | accepted _ _ space | marked _ space =>
    refine ⟨hcapacity, hopen, ?_⟩
    rw [withItem, List.length_append]
    exact space
  | took _ first =>
    rw [first] at hbound
    exact ⟨hcapacity, hopen, Nat.le_of_succ_le hbound⟩
  | full | closed | overrun | stop | idle => exact ⟨hcapacity, hopen, hbound⟩

theorem stopped_iff (h : Served limit s c o s') :
    s'.stopped ↔ s.stopped ∨ o = .stopped := by
  cases h with
  | overrun | stop => exact iff_of_true rfl (.inr rfl)
  | accepted | full | closed | marked | took | idle =>
    exact ⟨.inl, fun h => h.resolve_right nofun⟩

theorem of_stopped (h : Served limit s c o s') (stopped : s.stopped) :
    (∀ text, c.item? = some (.text text) → o = .refused .channelClosed) ∧
      (o = .stopped → s' = s) := by
  cases h with
  | accepted _ running | full _ running =>
    rw [stopped] at running
    cases running
  | closed => exact ⟨fun _ _ => rfl, nofun⟩
  | overrun asks | stop asks => exact ⟨by rw [asks]; nofun, fun _ => stop_of_stopped stopped⟩
  | marked asks | took asks | idle asks => exact ⟨by rw [asks]; nofun, nofun⟩

end Served

/-! ### Calls one after the other -/

structure Exchange where
  found : Session
  call : Call
  outcome : Outcome
  left : Session
  deriving DecidableEq, Repr

namespace Exchange

def accepted? (x : Exchange) : Option Outgoing :=
  if x.outcome = .accepted then x.call.item? else none

def taken? (x : Exchange) : Option Outgoing :=
  match x.outcome with
  | .took item? => item?
  | _ => none

def Silences (x y : Exchange) : Prop :=
  x.outcome = .stopped →
    (∀ text, y.call.item? = some (.text text) → y.outcome = .refused .channelClosed) ∧
      (y.outcome = .stopped → y.left = y.found)

end Exchange

def exchanges (s : Session) : List Call → List Exchange
  | [] => []
  | c :: cs => ⟨s, c, (s.perform c).1, (s.perform c).2⟩ :: (s.perform c).2.exchanges cs

def after (s : Session) : List Call → Session
  | [] => s
  | c :: cs => (s.perform c).2.after cs

/-- Each call finds the session as the one before has left it, and comes to what it must. -/
inductive Follows (limit : Nat) : Session → List Exchange → Session → Prop
  | nil (s : Session) : Follows limit s [] s
  | cons {s s' t : Session} {c : Call} {o : Outcome} {xs : List Exchange}
      (served : Served limit s c o s') (rest : Follows limit s' xs t) :
      Follows limit s (⟨s, c, o, s'⟩ :: xs) t

variable {t : Session} {cs : List Call} {x : Exchange} {xs : List Exchange}

theorem Sound.follows (hs : s.Sound limit) (cs : List Call) :
    Follows limit s (s.exchanges cs) (s.after cs) := by
  induction cs generalizing s with
  | nil => exact .nil s
  | cons c cs ih =>
    have hserved := hs.served c
    exact .cons hserved (ih (hserved.sound hs))

theorem Served.conserves (h : Served limit s c o s') :
    let x : Exchange := ⟨s, c, o, s'⟩
    s.outbox.items ++ x.accepted?.toList = x.taken?.toList ++ s'.outbox.items := by
  cases h with
  | accepted asks =>
    change s.outbox.items ++ c.item?.toList = _
    rw [asks]
    rfl
  | marked asks =>
    rw [asks]
    rfl
  | took _ first =>
    change s.outbox.items ++ [] = _
    rw [first]
    exact List.append_nil _
  | full | closed | overrun | stop | idle => exact List.append_nil _

namespace Follows

theorem conserves (h : Follows limit s xs t) :
    s.outbox.items ++ xs.filterMap Exchange.accepted? =
      xs.filterMap Exchange.taken? ++ t.outbox.items := by
  have hcons : ∀ (f : Exchange → Option Outgoing) (x : Exchange) (xs : List Exchange),
      (x :: xs).filterMap f = (f x).toList ++ xs.filterMap f := by
    intro f x xs
    cases hf : f x <;> simp [hf]
  induction h with
  | nil => exact List.append_nil _
  | cons served _ ih =>
    have hfirst := served.conserves
    rw [hcons, hcons, ← List.append_assoc, hfirst, List.append_assoc, ih, List.append_assoc]

theorem stopped_iff (h : Follows limit s xs t) :
    t.stopped ↔ s.stopped ∨ ∃ x ∈ xs, x.outcome = .stopped := by
  induction h with
  | nil => simp
  | cons served _ ih =>
    rw [ih, served.stopped_iff, or_assoc]
    simp only [List.mem_cons, exists_eq_or_imp]

theorem bounded (h : Follows limit s xs t) (hs : s.Sound limit) (hx : x ∈ xs) :
    x.found.outbox.items.length ≤ limit ∧ x.left.outbox.items.length ≤ limit := by
  induction h with
  | nil => cases hx
  | cons served _ ih =>
    have hsound := served.sound hs
    rcases List.mem_cons.1 hx with rfl | hx
    · exact ⟨hs.bounded, hsound.bounded⟩
    · exact ih hsound hx

theorem of_stopped (h : Follows limit s xs t) (stopped : s.stopped) (hx : x ∈ xs) :
    (∀ text, x.call.item? = some (.text text) → x.outcome = .refused .channelClosed) ∧
      (x.outcome = .stopped → x.left = x.found) := by
  induction h with
  | nil => cases hx
  | cons served _ ih =>
    rcases List.mem_cons.1 hx with rfl | hx
    · exact served.of_stopped stopped
    · exact ih (served.stopped_iff.2 (.inl stopped)) hx

theorem pairwise_silences (h : Follows limit s xs t) : xs.Pairwise Exchange.Silences := by
  induction h with
  | nil => exact List.Pairwise.nil
  | cons served rest ih =>
    -- a stop leaves a session that all later calls find stopped
    refine List.pairwise_cons.2 ⟨fun y hy hstop => ?_, ih⟩
    exact rest.of_stopped (served.stopped_iff.2 (.inr hstop)) hy

end Follows

theorem outcomes_take {items : List Outgoing} (h : s.outbox.items = items) :
    (s.exchanges (List.replicate items.length .take)).map Exchange.outcome =
      items.map fun item => .took (some item) := by
  induction items generalizing s with
  | nil => rfl
  | cons item items ih =>
    have htake : s.perform .take =
        (.took (some item), { s with outbox := { s.outbox with items := items } }) := by
      rw [perform, Outbox.take?, h]
    rw [List.length_cons, List.replicate_succ, exchanges, htake, List.map_cons, List.map_cons,
      ih rfl]

/-- What can be relied on when calls have made `t` of `s`, whose queue takes `limit` items. -/
structure Faithful (limit : Nat) (s : Session) (xs : List Exchange) (t : Session) : Prop where
  follows : Follows limit s xs t
  inOrder : xs.filterMap Exchange.taken? ++ t.outbox.items = xs.filterMap Exchange.accepted?
  seen : ∀ item ∈ xs.filterMap Exchange.taken? ++ t.outbox.items,
    ∃ x ∈ xs, x.outcome = .accepted ∧ x.call.item? = some item
  bounded : ∀ x ∈ xs, x.found.outbox.items.length ≤ limit ∧ x.left.outbox.items.length ≤ limit
  stopped_iff : t.stopped ↔ ∃ x ∈ xs, x.outcome = .stopped
  silenced : xs.Pairwise Exchange.Silences
  available : (t.exchanges (List.replicate t.outbox.items.length .take)).map Exchange.outcome =
    t.outbox.items.map fun item => .took (some item)

/-- Whatever is called in whatever order on a new session, its queue is faithful to the calls. It
has room for one item at least. -/
theorem queue_faithful (remoteId : String) (transport : Transport) (capacity : Nat)
    (cs : List Call) :
    let s := create remoteId transport capacity
    Faithful (max capacity 1) s (s.exchanges cs) (s.after cs) := by
  intro s
  have hs : s.Sound (max capacity 1) := ⟨rfl, rfl, Nat.zero_le _⟩
  have hfollows := hs.follows cs
  have horder := hfollows.conserves.symm
  have hrunning : ¬ s.stopped := Bool.false_ne_true
  refine ⟨hfollows, horder, fun item hitem => ?_, fun x => hfollows.bounded hs, ?_,
    hfollows.pairwise_silences, outcomes_take rfl⟩
  · rw [horder] at hitem
    obtain ⟨x, hx, haccepted⟩ := List.mem_filterMap.1 hitem
    exact ⟨x, hx, Option.ite_none_right_eq_some.1 haccepted⟩
  · rw [hfollows.stopped_iff, or_iff_right hrunning]

example :
    ((create "a" .line 0).exchanges [.deliver "x", .send .goodbye, .closeAfterFlush, .deliver "z",
      .take, .closeAfterFlush, .take, .take]).map Exchange.outcome =
        [.accepted, .refused .queueFull, .stopped, .refused .channelClosed,
          .took (some (.text "x")), .accepted, .took (some .close), .took none] := by
  decide

end Session
end ChatRelay

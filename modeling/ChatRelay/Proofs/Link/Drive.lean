import ChatRelay.Proofs.Link.Discipline

/-! The life of a driver. Whatever its transport yields, whatever others do to the session meanwhile
and however long anything takes, it turns the units of text into requests one after the other, up
to the first quit, and takes its leave once, when the session has stopped. From the stop on it has
a bounded number of things left to do, and none of them waits for anybody. -/

namespace ChatRelay

/-- A driver at work, with what its transport has still to yield and a record of what it did. -/
structure Drive where
  link : Link
  session : Session
  stream : List Input
  dispatched : List (String × Option String)
  submitted : List Request
  taken : List String

namespace Drive

open Link (Event)

def start (id : SessionId) (s : Session) (stream : List Input) : Drive where
  link := .start id
  session := s
  stream
  dispatched := []
  submitted := []
  taken := []

inductive Moment
  | own (now : Nat) (e : Event)
  | others (s : Session)

def yields (d : Drive) : Event → Bool
  | .input input => d.stream.head? = some input
  | _ => true

def after (d : Drive) (e : Event) (link : Link) (session : Session) : Drive where
  link
  session
  stream := match e with
    | .input _ => d.stream.tail
    | _ => d.stream
  dispatched := d.dispatched ++ ((d.link.unit? e).map (·, d.session.profile.room)).toList
  submitted := d.submitted ++ (d.link.submission e).toList
  taken := d.taken ++ e.taken?.toList

def next (d : Drive) : Moment → Option Drive
  | .own now e =>
    if d.yields e then (d.link.step d.session now e).map fun (link, s) => d.after e link s
    else none
  | .others s => if d.session.stopped && !s.stopped then none else some { d with session := s }

def run (d : Drive) : List Moment → Option Drive
  | [] => some d
  | m :: ms => (d.next m).bind (·.run ms)

inductive Next (d : Drive) : Moment → Drive → Prop
  | own {now : Nat} {e : Event} {link : Link} {s : Session} (yields : d.yields e)
      (step : d.link.Step d.session now e link s) : Next d (.own now e) (d.after e link s)
  | others {s : Session} (stays : d.session.stopped → s.stopped) :
      Next d (.others s) { d with session := s }

variable {d d' : Drive} {m : Moment} {ms : List Moment} {e : Event} {link : Link} {s : Session}
  {now : Nat}

theorem next_of_eq_some (h : d.next m = some d') : d.Next m d' := by
  cases m with
  | own now e =>
    simp only [next] at h
    split at h
    · next hy =>
      obtain ⟨⟨link, s⟩, hs, rfl⟩ := Option.map_eq_some_iff.1 h
      exact .own hy (Link.step_of_eq_some hs)
    · cases h
  | others s =>
    simp only [next] at h
    split at h
    · cases h
    · next hc =>
      cases h
      exact .others fun hs => by simpa [hs] using hc

theorem run_induction {P : Drive → Prop} (hstep : ∀ {d m d'}, d.Next m d' → P d → P d')
    (hr : d.run ms = some d') (h0 : P d) : P d' := by
  induction ms generalizing d with
  | nil =>
    cases hr
    exact h0
  | cons m ms ih =>
    obtain ⟨d₁, hn, hr⟩ := Option.bind_eq_some_iff.1 hr
    exact ih hr (hstep (next_of_eq_some hn) h0)

/-! ### What every moment keeps -/

def requests (d : Drive) : List Request :=
  d.dispatched.filterMap fun u => (Command.parse u.1).request? d.link.session u.2

theorem requests_after (hs : d.link.Step d.session now e link s) :
    (d.after e link s).requests = d.requests ++ (d.link.raised? d.session e).toList := by
  unfold requests after Link.raised?
  rw [List.filterMap_append, hs.session_eq]
  cases d.link.unit? e with
  | none => rfl
  | some text =>
    cases hr : (Command.parse text).request? d.link.session d.session.profile.room <;> simp [hr]

/-- What has been read of a stream, and what has been done about it. -/
structure Kept (id : SessionId) (stream : List Input) (d : Drive) : Prop where
  session : d.link.session = id
  ends : d.link.Ends d.session
  acted : ∃ read, stream = read ++ d.stream ∧
    Link.Acted d.link.reader (d.dispatched.map Prod.fst) (Input.texts read)
  asked : d.link.Asked d.requests d.submitted

namespace Kept

variable {id : SessionId} {stream : List Input}

theorem start (id : SessionId) (s : Session) (stream : List Input) :
    (start id s stream).Kept id stream where
  session := rfl
  ends := ⟨fun h => (nomatch h), fun h => absurd (.inl rfl) h, fun h => absurd rfl h⟩
  acted :=
    ⟨[], rfl, List.prefix_rfl, fun _ h => (nomatch h), fun _ => ⟨rfl, fun _ h => (nomatch h)⟩⟩
  asked := ⟨[], rfl, List.prefix_rfl, Nat.zero_le _, fun _ => rfl⟩

theorem acted_after (hy : d.yields e) (hs : d.link.Step d.session now e link s)
    (hk : d.Kept id stream) : ∃ read, stream = read ++ (d.after e link s).stream ∧
      Link.Acted link.reader ((d.after e link s).dispatched.map Prod.fst) (Input.texts read) := by
  obtain ⟨read, hstream, ha⟩ := hk.acted
  have hunits : (d.after e link s).dispatched.map Prod.fst =
      d.dispatched.map Prod.fst ++ (d.link.unit? e).toList := by
    unfold after
    cases d.link.unit? e <;> simp
  rw [hunits]
  by_cases he : ∃ input, e = .input input
  · obtain ⟨input, rfl⟩ := he
    have hhead : d.stream.head? = some input := of_decide_eq_true hy
    have hrest : d.stream = input :: d.stream.tail := (List.cons_head?_tail hhead).symm
    refine ⟨read ++ [input], ?_, ?_⟩
    · rw [List.append_assoc, List.singleton_append, hstream, hrest]
      rfl
    · rw [Input.texts_concat]
      exact ha.input hs
  · have hn : ∀ input, e ≠ .input input := fun input h => he ⟨input, h⟩
    refine ⟨read, ?_, ?_⟩
    · rw [hstream]
      cases e with
      | input input => exact absurd rfl (hn input)
      | _ => rfl
    · rw [Link.unit?_of_other hn, Option.toList_none, List.append_nil]
      exact ha.idle hs hn

theorem next (hn : d.Next m d') (hk : d.Kept id stream) : d'.Kept id stream := by
  cases hn with
  | others stays => exact ⟨hk.session, hk.ends.mono stays, hk.acted, hk.asked⟩
  | own yields hs =>
    refine ⟨hs.session_eq.trans hk.session, hk.ends.step hs, hk.acted_after yields hs, ?_⟩
    rw [requests_after hs]
    exact hk.asked.step hs hk.ends

end Kept

/-! ### After the stop -/

def Moment.isOwn : Moment → Bool
  | .own .. => true
  | .others _ => false

theorem Next.still (hn : d.Next m d') (h : d.session.stopped) :
    d'.session.stopped ∧ d'.dispatched = d.dispatched ∧ d'.taken = d.taken ∧
      m.isOwn.toNat + d'.link.effort ≤ d.link.effort := by
  cases hn with
  | others stays => exact ⟨stays h, rfl, rfl, Nat.le_of_eq (Nat.zero_add _)⟩
  | own _ hs =>
    obtain ⟨hunit, htaken⟩ := hs.unit?_of_stopped h
    refine ⟨hs.stopped_of_stopped h, ?_, ?_, ?_⟩
    · simp [after, hunit]
    · simp [after, htaken]
    · have hlt := hs.effort_lt h
      rw [Moment.isOwn, Bool.toNat_true, Nat.add_comm]
      exact hlt

theorem run_still (hr : d.run ms = some d') (h : d.session.stopped) :
    d'.dispatched = d.dispatched ∧ d'.taken = d.taken ∧
      ms.countP Moment.isOwn + d'.link.effort ≤ d.link.effort := by
  induction ms generalizing d with
  | nil =>
    cases hr
    exact ⟨rfl, rfl, Nat.le_of_eq (Nat.zero_add _)⟩
  | cons m ms ih =>
    obtain ⟨d₁, hn, hr⟩ := Option.bind_eq_some_iff.1 hr
    obtain ⟨hstopped, hdispatched, htaken, heffort⟩ := (next_of_eq_some hn).still h
    obtain ⟨hdispatched', htaken', heffort'⟩ := ih hr hstopped
    refine ⟨hdispatched'.trans hdispatched, htaken'.trans htaken, ?_⟩
    rw [List.countP_cons]
    cases hm : m.isOwn <;> simp [hm] at heffort ⊢ <;> omega

/-! ### The life of a driver -/

structure Disciplined (id : SessionId) (stream : List Input) (d : Drive) : Prop where
  inOrder : d.dispatched.map Prod.fst <+: Input.texts stream
  quitLast : ∀ u ∈ d.dispatched.dropLast, Command.parse u.1 ≠ .quit
  /-- Each unit was one request at most, and only a stop keeps the last of them from the hub. What
  follows the requests is the leave, once. -/
  asked : ∃ asked,
    d.submitted = asked ++ (if d.link.departure = .pending then [] else [.leave id]) ∧
    asked <+: d.requests ∧ d.requests.length ≤ asked.length + 1 ∧ (∀ i, .leave i ∉ asked) ∧
      (d.session.stopped = false → d.requests = asked ++ d.link.reader.posting?.toList)
  leaving : d.link.departure ≠ .pending → d.session.stopped
  still : d.session.stopped → ∀ {ms d'}, d.run ms = some d' →
    d'.dispatched = d.dispatched ∧ d'.taken = d.taken ∧ ms.countP Moment.isOwn ≤ 6
  goesOn : d.session.stopped → d.link.departure ≠ .complete →
    ∃ e, ∀ now, (d.next (.own now e)).isSome

theorem leave_not_mem_requests (d : Drive) (i : SessionId) : .leave i ∉ d.requests := by
  intro h
  obtain ⟨u, -, hu⟩ := List.mem_filterMap.1 h
  exact Command.request?_ne_leave hu

theorem disciplined_run {id : SessionId} {stream : List Input}
    (hr : (start id s stream).run ms = some d) : d.Disciplined id stream := by
  have hk : d.Kept id stream := run_induction Kept.next hr (Kept.start id s stream)
  obtain ⟨read, hstream, hacted⟩ := hk.acted
  obtain ⟨asked, hsubmitted, hbefore, hlength, hall⟩ := hk.asked
  refine ⟨?_, ?_, ⟨asked, ?_, hbefore, hlength, fun i hi => ?_, fun h => hall fun hd => ?_⟩,
    fun h => hk.ends.read (hk.ends.leaving h).1, fun h ms d' hr => ?_, fun h hd => ?_⟩
  · refine hacted.inOrder.trans ?_
    rw [hstream, Input.texts, Input.texts, List.filterMap_append]
    exact List.prefix_append _ _
  · intro u hu
    refine hacted.quitLast u.1 ?_
    rw [← List.map_dropLast]
    exact List.mem_map_of_mem hu
  · rw [hsubmitted, Link.farewell, hk.session]
  · exact d.leave_not_mem_requests i (hbefore.subset hi)
  · rw [hk.ends.read hd] at h
    cases h
  · obtain ⟨hdispatched, htaken, heffort⟩ := run_still hr h
    exact ⟨hdispatched, htaken, (Nat.le_add_right _ _).trans (heffort.trans d.link.effort_le)⟩
  · obtain ⟨e, hn, hsome⟩ := Link.exists_step_of_stopped h hd
    have hy : d.yields e = true := by
      cases e with
      | input input => exact absurd rfl (hn input)
      | _ => rfl
    exact ⟨e, fun now => by rw [next, if_pos hy, Option.isSome_map]; exact hsome now⟩

def parting : List Input :=
  [.unit (.text "hi"), .unit .skip, .unit (.text "/quit"), .unit (.text "late"), .ended]

def partingMoments : List Moment :=
  [.own 0 (.input (.unit (.text "hi"))), .own 0 .accepted, .own 0 (.input (.unit .skip)),
    .others (.create "a" .line 8), .own 1 (.input (.unit (.text "/quit"))),
    .own 1 (.took (.text Message.goodbye.text)), .own 2 (.input (.unit (.text "late"))),
    .own 2 .written, .own 3 (.took .close), .own 3 .readerStopped, .own 4 .closed, .own 4 .leave,
    .own 5 .left]

theorem disciplined_parting :
    ∃ d, (start 0 (.create "a" .line 8) parting).run partingMoments = some d ∧
      d.submitted = [.chat 0 "hi", .leave 0] ∧ d.link.departure = .complete ∧
        d.Disciplined 0 parting := by
  have hview : ((start 0 (.create "a" .line 8) parting).run partingMoments).map
      (fun d => (d.submitted, d.link.departure)) = some ([.chat 0 "hi", .leave 0], .complete) := by
    decide +kernel
  obtain ⟨d, hr, hd⟩ := Option.map_eq_some_iff.1 hview
  rw [Prod.mk.injEq] at hd
  exact ⟨d, hr, hd.1, hd.2, disciplined_run hr⟩

end Drive
end ChatRelay

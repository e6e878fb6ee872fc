import ChatRelay.Proofs.Freeze
import ChatRelay.Proofs.Link.Drive

/-! The end that a quit brings. When there is room for a goodbye and for the mark behind it, all
that is queued by then is written in its order, and nothing that others queue behind the mark. With
less room the session stops on the spot, and nothing more is taken. No input is acted on in either
case, and the leave comes once. -/

namespace ChatRelay

namespace Outgoing

variable {items more : List Outgoing}

def untilClose : List Outgoing → List String
  | .text t :: items => t :: untilClose items
  | _ => []

theorem untilClose_append (marked : .close ∈ items) (more : List Outgoing) :
    untilClose (items ++ more) = untilClose items := by
  induction items with
  | nil => cases marked
  | cons item items ih =>
    cases item with
    | close => rfl
    | text text =>
      have hrest : .close ∈ items := by simpa using marked
      simp only [List.cons_append, untilClose, ih hrest]

theorem untilClose_append_of_unmarked (unmarked : .close ∉ items) (more : List Outgoing) :
    untilClose (items ++ more) = items.filterMap text? ++ untilClose more := by
  induction items with
  | nil => rfl
  | cons item items ih =>
    cases item with
    | close => exact absurd List.mem_cons_self unmarked
    | text text =>
      have hrest := ih fun h => unmarked (List.mem_cons_of_mem _ h)
      simp [untilClose, text?, hrest]

end Outgoing

open Outgoing (untilClose)

namespace Session

variable {s : Session}

def parted (s : Session) : Session := (s.tell .goodbye).closeAfterFlush

theorem parted_of_space (running : s.stopped = false) (receiving : s.outbox.intake = .open)
    (space : s.outbox.items.length + 2 ≤ s.outbox.capacity) : s.parted = { s with
      outbox := { s.outbox with
        items := s.outbox.items ++ [.text Message.goodbye.text, .close] } } := by
  have haccepts : s.Accepts := ⟨running, receiving, by omega⟩
  have htold : s.tell .goodbye = s.withText Message.goodbye.text := by
    rw [tell, offer_eq_ite, if_pos haccepts]
  have hpush : (s.withText Message.goodbye.text).outbox.push .close = .ok { s.outbox with
      items := s.outbox.items ++ [.text Message.goodbye.text, .close] } := by
    refine Outbox.push_eq_ok_iff.2 ⟨receiving, ?_, ?_⟩
    · simp only [withText, List.length_append, List.length_singleton]
      omega
    · simp [withText]
  rw [parted, htold, closeAfterFlush, hpush]
  rfl

theorem stopped_parted (running : s.stopped = false)
    (full : s.outbox.capacity < s.outbox.items.length + 2) : s.parted.stopped := by
  obtain ⟨box, hpush, -⟩ | ⟨-, hstop⟩ := (s.tell .goodbye).closeAfterFlush_cases
  · obtain ⟨hopen, hspace, -⟩ := Outbox.push_eq_ok_iff.1 hpush
    rw [tell, offer_eq_ite] at hopen hspace
    by_cases ha : s.Accepts
    · rw [if_pos ha] at hspace
      simp only [withText, List.length_append, List.length_singleton] at hspace
      omega
    · rw [if_neg ha] at hopen hspace
      exact absurd ⟨running, hopen, hspace⟩ ha
  · rw [parted, hstop]
    rfl

end Session

namespace Link

variable {l l' : Link} {s s' : Session} {now deadline : Nat} {e : Event}

def unwritten? (l : Link) : Option String :=
  match l.writer with
  | .writing text => some text
  | _ => none

def written? (l : Link) : Event → Option String
  | .written => l.unwritten?
  | _ => none

def Event.smooth : Event → Bool
  | .writeFailed => false
  | .input i => !i.ends
  | _ => true

theorem unwritten?_of_not_writing (hw : ¬ l.Writing) : l.unwritten? = none := by
  unfold unwritten?
  split
  · next text writing => exact absurd (.inr ⟨text, writing⟩) hw
  · rfl

theorem Step.not_writing (hs : l.Step s now e l' s') (h : s.stopped) (hw : ¬ l.Writing) :
    ¬ l'.Writing := by
  cases hs with
  | reply _ running | post _ running | quit _ running | discard _ running | skip _ running
  | hangUp _ _ running | accept _ running | answer _ running | take _ running | mark _ running =>
    rw [h] at running
    cases running
  | written writing | fail writing => exact absurd (.inr ⟨_, writing⟩) hw
  | cease writing => exact absurd writing hw
  | close => exact fun hw => by rcases hw with hw | ⟨_, hw⟩ <;> cases hw
  | giveUp | halt | leave | left => exact hw

theorem Step.parting (hs : l.Step s now e l' s') (inactive : l.reader.active = false) :
    l'.reader.active = false ∧ l.unit? e = none ∧
      l.farewell ++ (l.submission e).toList = l'.farewell := by
  cases hs with
  | reply reading | post reading | quit reading => simp [reading, Reader.active] at inactive
  | accept posting => simp [posting, Reader.active] at inactive
  | answer waiting => simp [waiting, Reader.active] at inactive
  | discard flushing => exact ⟨inactive, by simp [unit?, flushing], List.append_nil _⟩
  | hangUp ends => exact ⟨rfl, unit?_of_ends ends, List.append_nil _⟩
  | giveUp | halt => exact ⟨rfl, rfl, List.append_nil _⟩
  | skip | take | mark | written | fail | cease | close =>
    exact ⟨inactive, rfl, List.append_nil _⟩
  | leave _ _ pending => exact ⟨inactive, rfl, by simp [submission, farewell, pending]⟩
  | left announced => exact ⟨inactive, rfl, by simp [submission, farewell, announced]⟩

/-- A driver that discards its input until it has come to the mark in its queue. -/
structure Flushing (l : Link) (s : Session) (deadline : Nat) : Prop where
  running : s.stopped = false
  reader : l.reader = .flushing deadline
  writing : l.Writing
  pending : l.departure = .pending
  marked : .close ∈ s.outbox.items

inductive Flush (l : Link) (s : Session) (now : Nat) : Event → Link → Session → Prop
  | pass (i : Input) : Flush l s now (.input i) l s
  | take {t : String} {outbox : Outbox} (taking : l.writer = .taking)
      (first : s.outbox.items = .text t :: outbox.items) :
      Flush l s now (.took (.text t)) { l with writer := .writing t } { s with outbox }
  | mark {outbox : Outbox} (taking : l.writer = .taking)
      (first : s.outbox.items = .close :: outbox.items) :
      Flush l s now (.took .close) { l with writer := .closing (now + patience) }
        (Session.stop { s with outbox })
  | written {t : String} (writing : l.writer = .writing t) :
      Flush l s now .written { l with writer := .taking } s

theorem Flushing.flush (hf : l.Flushing s deadline) (hs : l.Step s now e l' s')
    (early : now < deadline) (smooth : e.smooth) : l.Flush s now e l' s' := by
  obtain ⟨running, reader, writing, pending, -⟩ := hf
  cases hs with
  | reply reading | post reading | quit reading =>
    rw [reader] at reading
    cases reading
  | accept posting =>
    rw [reader] at posting
    cases posting
  | answer waiting =>
    rw [reader] at waiting
    cases waiting
  | discard | skip => exact .pass _
  | hangUp ends =>
    rw [Event.smooth, ends] at smooth
    cases smooth
  | giveUp flushing due =>
    rw [reader, Reader.flushing.injEq] at flushing
    omega
  | halt stopped | cease _ stopped =>
    rw [running] at stopped
    cases stopped
  | take taking _ first => exact .take taking (Outbox.take?_eq_some_iff.1 first).1
  | mark taking _ first => exact .mark taking (Outbox.take?_eq_some_iff.1 first).1
  | written writing => exact .written writing
  | fail => cases smooth
  | close closing =>
    rcases writing with hw | ⟨_, hw⟩ <;> rw [closing] at hw <;> cases hw
  | leave read =>
    rw [reader] at read
    cases read
  | left announced =>
    rw [pending] at announced
    cases announced

def due (l : Link) (s : Session) : List String :=
  l.unwritten?.toList ++ untilClose s.outbox.items

/-- How many events of its own a driver has left, but for input that it discards. -/
def load (l : Link) (s : Session) : Nat :=
  (if s.stopped then 0 else 2 * (untilClose s.outbox.items).length) + l.effort

theorem Flushing.step (hf : l.Flushing s deadline) (hs : l.Flush s now e l' s') :
    l'.Flushing s' deadline ∧ l.due s = (l.written? e).toList ++ l'.due s' ∨
      s'.stopped ∧ ¬ l'.Writing ∧ l.due s = (l.written? e).toList := by
  obtain ⟨running, reader, writing, pending, marked⟩ := hf
  cases hs with
  | pass => exact .inl ⟨⟨running, reader, writing, pending, marked⟩, rfl⟩
  | @take t outbox taking first =>
    rw [first] at marked
    refine .inl ⟨⟨running, reader, .inr ⟨t, rfl⟩, pending, by simpa using marked⟩, ?_⟩
    simp [due, unwritten?, written?, taking, first, untilClose]
  | mark taking first =>
    refine .inr ⟨rfl, fun hw => ?_, ?_⟩
    · rcases hw with hw | ⟨_, hw⟩ <;> cases hw
    · simp [due, unwritten?, written?, taking, first, untilClose]
  | written writing =>
    refine .inl ⟨⟨running, reader, .inl rfl, pending, marked⟩, ?_⟩
    simp [due, unwritten?, written?, writing]

theorem Flushing.load_lt (hf : l.Flushing s deadline) (hs : l.Flush s now e l' s')
    (hn : ∀ i, e ≠ .input i) : l'.load s' < l.load s := by
  have running := hf.running
  cases hs with
  | pass i => exact absurd rfl (hn i)
  | take taking first =>
    simp [load, effort, running, taking, first, untilClose, Writer.effort]
    omega
  | mark taking first =>
    simp [load, effort, Session.stop, taking, Writer.effort]
    omega
  | written writing => simp [load, effort, running, writing, Writer.effort]

theorem Flushing.goesOn (hf : l.Flushing s deadline) :
    ∃ e : Event, (∀ i, e ≠ .input i) ∧ e.smooth ∧ ∀ now, (l.step s now e).isSome := by
  obtain ⟨running, -, writing, -, marked⟩ := hf
  rcases writing with taking | ⟨t, writing⟩
  · obtain ⟨item, items, hitems⟩ := List.exists_cons_of_ne_nil (List.ne_nil_of_mem marked)
    refine ⟨.took item, by simp, rfl, fun now => ?_⟩
    cases item <;> simp [Link.step, taking, running, Outbox.take?, hitems]
  · exact ⟨.written, by simp, rfl, fun now => by simp [Link.step, writing]⟩

end Link

namespace Drive

open Link (Event)

variable {d d' d₀ d₁ : Drive} {m : Moment} {ms : List Moment} {now deadline : Nat}

def Moment.written? (d : Drive) : Moment → Option String
  | .own _ e => d.link.written? e
  | .others _ => none

def written (d : Drive) : List Moment → List String
  | [] => []
  | m :: ms => (m.written? d).toList ++ (d.next m).elim [] (·.written ms)

def Moment.calm (deadline : Nat) (d : Drive) : Moment → Bool
  | .own now e => decide (now < deadline) && e.smooth
  | .others s => !s.stopped && d.session.outbox.items.isPrefixOf s.outbox.items

/-- It is calm until the session stops. -/
def calm (deadline : Nat) (d : Drive) : List Moment → Bool
  | [] => true
  | m :: ms => (d.session.stopped || m.calm deadline d) && (d.next m).all (·.calm deadline ms)

def due (d : Drive) : List String := d.link.due d.session

def lastTexts (d : Drive) : List String :=
  d.link.unwritten?.toList ++
    untilClose (d.session.outbox.items ++ [.text Message.goodbye.text, .close])

def load (d : Drive) : Nat := d.stream.length + d.link.load d.session

/-- The writer still has some texts to write and then the mark to come to, or it has ended. -/
inductive Underway (deadline : Nat) (d : Drive) : List String → Prop
  | going (flushing : d.link.Flushing d.session deadline) : Underway deadline d d.due
  | ended (stopped : d.session.stopped) (ended : ¬ d.link.Writing) : Underway deadline d []

variable {rest : List String}

theorem Underway.next_own {e : Event} {link : Link} {s : Session}
    (hu : d.Underway deadline rest) (hs : d.link.Step d.session now e link s)
    (hc : d.session.stopped = false → now < deadline ∧ e.smooth) :
    ∃ rest', (d.after e link s).Underway deadline rest' ∧
      rest = (d.link.written? e).toList ++ rest' := by
  cases hu with
  | going flushing =>
    obtain ⟨early, smooth⟩ := hc flushing.running
    rcases flushing.step (flushing.flush hs early smooth) with ⟨hf, hdue⟩ | ⟨hstop, hend, hdue⟩
    · exact ⟨_, .going hf, hdue⟩
    · exact ⟨[], .ended hstop hend, by rw [due, hdue, List.append_nil]⟩
  | ended stopped ended =>
    refine ⟨[], .ended (hs.stopped_of_stopped stopped) (hs.not_writing stopped ended), ?_⟩
    have hnone : d.link.written? e = none := by
      cases e with
      | written => exact Link.unwritten?_of_not_writing ended
      | _ => rfl
    rw [hnone]
    rfl

theorem Underway.next_others {s : Session} (hu : d.Underway deadline rest)
    (stays : d.session.stopped → s.stopped)
    (hc : d.session.stopped = false → s.stopped = false ∧
      d.session.outbox.items <+: s.outbox.items) :
    ({ d with session := s } : Drive).Underway deadline rest := by
  cases hu with
  | ended stopped ended => exact .ended (stays stopped) ended
  | going flushing =>
    obtain ⟨running, more, hitems⟩ := hc flushing.running
    have hmarked : .close ∈ s.outbox.items := hitems ▸ List.mem_append_left more flushing.marked
    have hdue : d.due = ({ d with session := s } : Drive).due := by
      rw [due, due, Link.due, Link.due, ← hitems, Outgoing.untilClose_append flushing.marked]
    rw [hdue]
    exact .going ⟨running, flushing.reader, flushing.writing, flushing.pending, hmarked⟩

theorem stream_after_of_other {e : Event} {link : Link} {s : Session} (hn : ∀ i, e ≠ .input i) :
    (d.after e link s).stream = d.stream := by
  cases e with
  | input i => exact absurd rfl (hn i)
  | _ => rfl

theorem load_after {e : Event} {link : Link} {s : Session} (hu : d.Underway deadline rest)
    (hy : d.yields e) (hs : d.link.Step d.session now e link s)
    (hc : d.session.stopped = false → now < deadline ∧ e.smooth) :
    1 + (d.after e link s).load ≤ d.load := by
  cases hu with
  | ended stopped =>
    have hlt := hs.effort_lt stopped
    have hunread : (d.after e link s).stream.length ≤ d.stream.length := by
      cases e with
      | input => simp [after]
      | _ => exact Nat.le_refl _
    have hstopped := hs.stopped_of_stopped stopped
    simp only [load, Link.load, stopped, hstopped, after, if_true] at hlt hunread ⊢
    omega
  | going flushing =>
    obtain ⟨early, smooth⟩ := hc flushing.running
    have hflush := flushing.flush hs early smooth
    by_cases he : ∃ i, e = .input i
    · obtain ⟨i, rfl⟩ := he
      have hhead : d.stream.head? = some i := of_decide_eq_true hy
      have hrest : d.stream = i :: d.stream.tail := (List.cons_head?_tail hhead).symm
      cases hflush
      rw [load, load, after, hrest]
      simp only [List.tail_cons, List.length_cons]
      omega
    · have hn : ∀ i, e ≠ .input i := fun i h => he ⟨i, h⟩
      have hlt := flushing.load_lt hflush hn
      rw [load, load, stream_after_of_other hn]
      simp only [after]
      omega

theorem load_others {s : Session} (hu : d.Underway deadline rest)
    (stays : d.session.stopped → s.stopped)
    (hc : d.session.stopped = false → s.stopped = false ∧
      d.session.outbox.items <+: s.outbox.items) :
    ({ d with session := s } : Drive).load = d.load := by
  cases hu with
  | ended stopped => simp [load, Link.load, stopped, stays stopped]
  | going flushing =>
    obtain ⟨running, more, hitems⟩ := hc flushing.running
    have hsame := Outgoing.untilClose_append flushing.marked more
    rw [hitems] at hsame
    simp [load, Link.load, running, flushing.running, hsame]

theorem Underway.next (hu : d.Underway deadline rest) (hn : d.Next m d')
    (hc : d.session.stopped || m.calm deadline d) : ∃ rest', d'.Underway deadline rest' ∧
      rest = (m.written? d).toList ++ rest' ∧ m.isOwn.toNat + d'.load ≤ d.load := by
  rw [Bool.or_eq_true, or_iff_not_imp_left, Bool.not_eq_true] at hc
  cases hn with
  | own hy hs =>
    simp only [Moment.calm, Bool.and_eq_true, decide_eq_true_iff] at hc
    obtain ⟨rest', hu', hrest⟩ := hu.next_own hs hc
    exact ⟨rest', hu', hrest, load_after hu hy hs hc⟩
  | others stays =>
    simp only [Moment.calm, Bool.and_eq_true, Bool.not_eq_true', List.isPrefixOf_iff_prefix] at hc
    refine ⟨rest, hu.next_others stays hc, rfl, ?_⟩
    rw [load_others hu stays hc]
    exact Nat.le_of_eq (Nat.zero_add _)

theorem Underway.run (hu : d.Underway deadline rest) (hr : d.run ms = some d')
    (hc : d.calm deadline ms) : ∃ rest', d'.Underway deadline rest' ∧
      rest = d.written ms ++ rest' ∧ ms.countP Moment.isOwn + d'.load ≤ d.load := by
  induction ms generalizing d rest with
  | nil =>
    cases hr
    exact ⟨rest, hu, rfl, Nat.le_of_eq (Nat.zero_add _)⟩
  | cons m ms ih =>
    obtain ⟨d₁, hnext, hr⟩ := Option.bind_eq_some_iff.1 hr
    rw [calm, hnext, Option.all_some, Bool.and_eq_true] at hc
    obtain ⟨rest₁, hu₁, hrest, hload⟩ := hu.next (next_of_eq_some hnext) hc.1
    obtain ⟨rest', hu', hrest', hload'⟩ := ih hu₁ hr hc.2
    refine ⟨rest', hu', ?_, ?_⟩
    · rw [hrest, hrest', written, hnext, Option.elim_some, List.append_assoc]
    · rw [List.countP_cons]
      cases hm : m.isOwn <;> simp [hm] at hload ⊢ <;> omega

/-! ### Whatever comes after a quit -/

structure Deaf (units : List (String × Option String)) (asked : List Request) (d : Drive) :
    Prop where
  inactive : d.link.reader.active = false
  dispatched : d.dispatched = units
  submitted : d.submitted = asked ++ d.link.farewell

theorem Deaf.next {units : List (String × Option String)} {asked : List Request}
    (hn : d.Next m d') (hd : d.Deaf units asked) : d'.Deaf units asked := by
  obtain ⟨inactive, dispatched, submitted⟩ := hd
  cases hn with
  | others => exact ⟨inactive, dispatched, submitted⟩
  | own _ hs =>
    obtain ⟨hinactive, hunit, hfarewell⟩ := hs.parting inactive
    refine ⟨hinactive, ?_, ?_⟩
    · show d.dispatched ++ ((d.link.unit? _).map (·, d.session.profile.room)).toList = units
      rw [hunit, dispatched]
      exact List.append_nil units
    · show d.submitted ++ (d.link.submission _).toList = _
      rw [submitted, List.append_assoc, hfarewell]
      rfl

theorem not_took_of_stopped (hr : d.run ms = some d') (h : d.session.stopped) (now : Nat)
    (item : Outgoing) : .own now (.took item) ∉ ms := by
  induction ms generalizing d with
  | nil => exact List.not_mem_nil
  | cons m ms ih =>
    obtain ⟨d₁, hnext, hr⟩ := Option.bind_eq_some_iff.1 hr
    have hn := next_of_eq_some hnext
    rw [List.mem_cons, not_or]
    refine ⟨?_, ih hr (hn.still h).1⟩
    rintro rfl
    cases hn with
    | own _ hs =>
      cases hs with
      | take _ running | mark _ running =>
        rw [h] at running
        cases running

theorem isSome_next {e : Event} (hn : ∀ i, e ≠ .input i)
    (h : ∀ now, (d.link.step d.session now e).isSome) (now : Nat) :
    (d.next (.own now e)).isSome := by
  have hy : d.yields e = true := by
    cases e with
    | input i => exact absurd rfl (hn i)
    | _ => rfl
  rw [next, if_pos hy, Option.isSome_map]
  exact h now

/-! ### A quit -/

section Quit

variable {t : Nat} {text : String} {id : SessionId} {stream : List Input}

theorem eq_after_of_quit (hn : d₀.Next (.own t (.input (.unit (.text text)))) d₁)
    (reading : d₀.link.reader = .reading) (quit : Command.parse text = .quit) :
    d₀.session.stopped = false ∧ d₁ = d₀.after (.input (.unit (.text text)))
      { d₀.link with reader := .flushing (t + Link.patience) } d₀.session.parted := by
  have hplan : (Command.parse text).plan d₀.link.session d₀.session.profile.room = .quit :=
    Command.plan_eq_quit_iff.2 quit
  cases hn with
  | own _ hs =>
    cases hs with
    | quit _ running => exact ⟨running, rfl⟩
    | reply _ _ planned | post _ _ planned =>
      rw [hplan] at planned
      cases planned
    | discard flushing =>
      rw [reading] at flushing
      cases flushing
    | hangUp ends => cases ends

structure Parted (id : SessionId) (text : String) (d₀ d : Drive) : Prop where
  last : d.dispatched = d₀.dispatched ++ [(text, d₀.session.profile.room)]
  left : d.submitted = d₀.submitted ++ if d.link.departure = .pending then [] else [.leave id]
  once : ∀ i, .leave i ∉ d₀.submitted
  leaving : d.link.departure ≠ .pending → d.session.stopped
  goesOn : d.session.stopped → d.link.departure ≠ .complete →
    ∃ e, ∀ now, (d.next (.own now e)).isSome

/-- What comes of a quit for which there was room: the texts are written in their order, all of
them by the time the session stops, and after a bounded number of events nothing is left to do. -/
structure Flushed (texts : List String) (d₁ : Drive) (ms : List Moment) (d : Drive) : Prop where
  inOrder : d₁.written ms <+: texts
  whole : d.session.stopped → d₁.written ms = texts
  brief : ms.countP Moment.isOwn ≤ d₁.stream.length + 2 * texts.length + 6
  goesOn : d.session.stopped = false → ∃ e, e.smooth ∧ ∀ now, (d.next (.own now e)).isSome

theorem Underway.load_le {texts : List String} (hu : d.Underway deadline texts) :
    d.load ≤ d.stream.length + 2 * texts.length + 6 := by
  have heffort := d.link.effort_le
  cases hu with
  | going flushing =>
    simp only [load, Link.load, flushing.running, due, Link.due, List.length_append]
    simp only [Bool.false_eq_true, if_false]
    omega
  | ended stopped =>
    simp only [load, Link.load, stopped, if_true]
    omega

theorem Underway.flushed {texts : List String} (hu : d₁.Underway deadline texts)
    (hr : d₁.run ms = some d) (hc : d₁.calm deadline ms) : Flushed texts d₁ ms d := by
  have hload := hu.load_le
  obtain ⟨rest, hu', htexts, hcount⟩ := hu.run hr hc
  refine ⟨⟨rest, htexts.symm⟩, fun stopped => ?_, by omega, fun running => ?_⟩
  · cases hu' with
    | going flushing =>
      rw [flushing.running] at stopped
      cases stopped
    | ended => rw [htexts, List.append_nil]
  · cases hu' with
    | going flushing =>
      obtain ⟨e, hn, smooth, hsome⟩ := flushing.goesOn
      exact ⟨e, smooth, isSome_next hn hsome⟩
    | ended stopped =>
      rw [stopped] at running
      cases running

theorem parted_of_quit (hk : d₀.Kept id stream)
    (hn : d₀.Next (.own t (.input (.unit (.text text)))) d₁) (reading : d₀.link.reader = .reading)
    (quit : Command.parse text = .quit) (hr : d₁.run ms = some d) : d₀.Parted id text d := by
  have hpending : d₀.link.departure = .pending := hk.ends.pending (.inl (by simp [reading]))
  have hk' : d.Kept id stream := run_induction Kept.next hr (hk.next hn)
  obtain ⟨asked, hsubmitted, hbefore, -⟩ := hk.asked
  have hdeaf : d₁.Deaf (d₀.dispatched ++ [(text, d₀.session.profile.room)]) d₀.submitted := by
    obtain ⟨-, rfl⟩ := eq_after_of_quit hn reading quit
    refine ⟨rfl, ?_, ?_⟩
    · simp [after, Link.unit?, reading]
    · simp [after, Link.submission, Link.farewell, hpending]
  obtain ⟨-, hdispatched, hleft⟩ := run_induction Deaf.next hr hdeaf
  refine ⟨hdispatched, ?_, fun i hi => ?_, fun h => hk'.ends.read (hk'.ends.leaving h).1,
    fun stopped hd => ?_⟩
  · rw [hleft, Link.farewell, hk'.session]
  · rw [hsubmitted, Link.farewell, if_pos hpending, List.append_nil] at hi
    exact d₀.leave_not_mem_requests i (hbefore.subset hi)
  · obtain ⟨e, hother, hsome⟩ := Link.exists_step_of_stopped stopped hd
    exact ⟨e, isSome_next hother hsome⟩

theorem underway_of_quit (he : d₀.link.Ends d₀.session)
    (hn : d₀.Next (.own t (.input (.unit (.text text)))) d₁) (reading : d₀.link.reader = .reading)
    (quit : Command.parse text = .quit) (receiving : d₀.session.outbox.intake = .open)
    (space : d₀.session.outbox.items.length + 2 ≤ d₀.session.outbox.capacity) :
    d₁.Underway (t + Link.patience) d₀.lastTexts := by
  obtain ⟨running, rfl⟩ := eq_after_of_quit hn reading quit
  have hwriting : d₀.link.Writing := by
    by_contra hw
    rw [he.wrote hw] at running
    cases running
  have hpending : d₀.link.departure = .pending := he.pending (.inl (by simp [reading]))
  rw [Session.parted_of_space running receiving space]
  exact .going ⟨running, rfl, hwriting, hpending, by simp [after]⟩

/-- With room for two more items in its queue, a session that is told to quit writes what is queued
and a goodbye, provided that its client reads in time and stays. With less room it stops at once. -/
theorem quit_flushes {s : Session} {before : List Moment}
    (hr : (start id s stream).run before = some d₀)
    (hq : d₀.next (.own t (.input (.unit (.text text)))) = some d₁)
    (reading : d₀.link.reader = .reading) (quit : Command.parse text = .quit)
    (hrun : d₁.run ms = some d) :
    d₀.Parted id text d ∧
    (d₀.session.outbox.intake = .open →
      d₀.session.outbox.items.length + 2 ≤ d₀.session.outbox.capacity →
      d₁.calm (t + Link.patience) ms → Flushed d₀.lastTexts d₁ ms d ∧
        (.close ∉ d₀.session.outbox.items → d₀.lastTexts = d₀.link.unwritten?.toList ++
          d₀.session.outbox.items.filterMap Outgoing.text? ++ [Message.goodbye.text])) ∧
    (d₀.session.outbox.capacity < d₀.session.outbox.items.length + 2 →
      d₁.session.stopped ∧ d.taken = d₀.taken ∧
        (∀ now item, .own now (.took item) ∉ ms) ∧ ms.countP Moment.isOwn ≤ 6) := by
  have hk : d₀.Kept id stream := run_induction Kept.next hr (Kept.start id s stream)
  have hn := next_of_eq_some hq
  refine ⟨parted_of_quit hk hn reading quit hrun, fun receiving space hc => ?_, fun full => ?_⟩
  · refine ⟨(underway_of_quit hk.ends hn reading quit receiving space).flushed hrun hc,
      fun unmarked => ?_⟩
    rw [lastTexts, Outgoing.untilClose_append_of_unmarked unmarked, List.append_assoc]
    rfl
  · obtain ⟨running, rfl⟩ := eq_after_of_quit hn reading quit
    have stopped := Session.stopped_parted running full
    obtain ⟨-, htaken, heffort⟩ := run_still hrun stopped
    refine ⟨stopped, ?_, not_took_of_stopped hrun stopped, ?_⟩
    · rw [htaken]
      exact List.append_nil _
    · have hle := Link.effort_le { d₀.link with reader := .flushing (t + Link.patience) }
      exact (Nat.le_add_right _ _).trans (heffort.trans hle)

end Quit

def queued (capacity : Nat) (items : List Outgoing) : Session :=
  { Session.create "a" .line capacity with outbox := ⟨capacity, items, .open⟩ }

def adieu : List Moment :=
  [.own 1 .written, .own 2 (.input (.unit (.text "late"))), .own 2 (.took (.text "y")),
    .own 3 .written, .others (queued 3 [.text Message.goodbye.text, .close, .text "z"]),
    .own 4 (.took (.text Message.goodbye.text)), .own 4 .written, .own 5 (.took .close),
    .own 5 .readerStopped, .own 6 .closed, .own 6 .leave, .own 7 .left]

def curtAdieu : List Moment :=
  [.own 1 .readerStopped, .own 1 .writerStopped, .own 2 .closed, .own 2 .leave, .own 3 .left]

def beforeQuit (capacity : Nat) : List Moment :=
  [.others (queued capacity [.text "x", .text "y"]), .own 0 (.took (.text "x"))]

def adieuStream : List Input := [.unit (.text "/quit"), .unit (.text "late")]

theorem quit_flushes_adieu :
    (∃ d₀ d₁ d : Drive, d₁.written adieu = ["x", "y", Message.goodbye.text] ∧
      d.submitted = [.leave 0] ∧ d₀.Parted 0 "/quit" d ∧ Flushed d₀.lastTexts d₁ adieu d) ∧
    ∃ d₀ d₁ d : Drive, d.submitted = [.leave 0] ∧ d₀.Parted 0 "/quit" d ∧
      d₁.session.stopped ∧ d.taken = d₀.taken := by
  have hquit : Command.parse "/quit" = .quit := by decide +kernel
  constructor
  · have hview : ((start 0 (.create "a" .line 3) adieuStream).run (beforeQuit 3)).bind (fun d₀ =>
        (d₀.next (.own 1 (.input (.unit (.text "/quit"))))).bind fun d₁ =>
          (d₁.run adieu).map fun d =>
            (d₀.link.reader, d₀.session.outbox, d₁.calm (1 + Link.patience) adieu,
              d₁.written adieu, d.submitted)) =
        some (.reading, ⟨3, [.text "y"], .open⟩, true, ["x", "y", Message.goodbye.text],
          [.leave 0]) := by
      decide +kernel
    obtain ⟨d₀, hr, hview⟩ := Option.bind_eq_some_iff.1 hview
    obtain ⟨d₁, hq, hview⟩ := Option.bind_eq_some_iff.1 hview
    obtain ⟨d, hrun, hview⟩ := Option.map_eq_some_iff.1 hview
    simp only [Prod.mk.injEq] at hview
    obtain ⟨reading, hbox, hcalm, hwritten, hsubmitted⟩ := hview
    obtain ⟨hparted, hflushed, -⟩ := quit_flushes hr hq reading hquit hrun
    refine ⟨d₀, d₁, d, hwritten, hsubmitted, hparted, (hflushed ?_ ?_ hcalm).1⟩
    · rw [hbox]
    · simp [hbox]
  · have hview : ((start 0 (.create "a" .line 2) adieuStream).run (beforeQuit 2)).bind (fun d₀ =>
        (d₀.next (.own 1 (.input (.unit (.text "/quit"))))).bind fun d₁ =>
          (d₁.run curtAdieu).map fun d =>
            (d₀.link.reader, d₀.session.outbox, d.submitted)) =
        some (.reading, ⟨2, [.text "y"], .open⟩, [.leave 0]) := by
      decide +kernel
    obtain ⟨d₀, hr, hview⟩ := Option.bind_eq_some_iff.1 hview
    obtain ⟨d₁, hq, hview⟩ := Option.bind_eq_some_iff.1 hview
    obtain ⟨d, hrun, hview⟩ := Option.map_eq_some_iff.1 hview
    simp only [Prod.mk.injEq] at hview
    obtain ⟨reading, hbox, hsubmitted⟩ := hview
    obtain ⟨hparted, -, hfull⟩ := quit_flushes hr hq reading hquit hrun
    obtain ⟨stopped, htaken, -⟩ := hfull (by simp [hbox])
    exact ⟨d₀, d₁, d, hsubmitted, hparted, stopped, htaken⟩

end Drive
end ChatRelay

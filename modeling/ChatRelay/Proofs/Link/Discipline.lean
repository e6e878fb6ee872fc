import ChatRelay.Proofs.Link.Step
import Mathlib.Data.List.Infix

/-! What the steps of a driver keep: which units were acted on out of the texts that came, which
requests came of them, and that nothing ends before the session has stopped. -/

namespace ChatRelay

def Input.text? : Input → Option String
  | .unit (.text text) => some text
  | _ => none

def Input.texts (inputs : List Input) : List String := inputs.filterMap Input.text?

theorem Input.text?_of_ends {input : Input} (h : input.ends) : input.text? = none := by
  match input with
  | .unit .close | .failed | .ended => rfl

theorem Input.texts_concat (inputs : List Input) (input : Input) :
    texts (inputs ++ [input]) = texts inputs ++ input.text?.toList := by
  unfold texts
  rw [List.filterMap_append]
  cases h : input.text? <;> simp [h]

def Reader.active : Reader → Bool
  | .reading | .posting _ | .waiting _ => true
  | .flushing _ | .done => false

def Reader.posting? : Reader → Option Request
  | .posting errand => some errand.request
  | _ => none

def Writer.effort : Writer → Nat
  | .writing _ => 3
  | .taking => 2
  | .closing _ => 1
  | .done => 0

def Departure.effort : Departure → Nat
  | .pending => 2
  | .announced => 1
  | .complete => 0

namespace Link

def unit? (l : Link) : Event → Option String
  | .input (.unit (.text text)) => if l.reader = .reading then some text else none
  | _ => none

theorem unit?_of_ends {l : Link} {input : Input} (h : input.ends) :
    l.unit? (.input input) = none := by
  match input with
  | .unit .close | .failed | .ended => rfl

def Event.taken? : Event → Option String
  | .took (.text text) => some text
  | _ => none

def farewell (l : Link) : List Request :=
  if l.departure = .pending then [] else [.leave l.session]

variable {l l' : Link} {s s' : Session} {now : Nat} {e : Event}

theorem Step.session_eq (hs : l.Step s now e l' s') : l'.session = l.session := by
  cases hs <;> rfl

/-! ### Stopping -/

theorem stopped_tellAll (s : Session) (ms : List Message) : (s.tellAll ms).stopped = s.stopped := by
  rw [Session.tellAll_eq]

theorem stopped_closeAfterFlush (h : s.stopped) : s.closeAfterFlush.stopped := by
  obtain ⟨_, -, he⟩ | ⟨-, he⟩ := s.closeAfterFlush_cases
  · rw [he]
    exact h
  · rw [he]
    rfl

theorem Step.stopped_of_stopped (hs : l.Step s now e l' s') (h : s.stopped) : s'.stopped := by
  cases hs with
  | reply | answer => rwa [stopped_tellAll]
  | quit => exact stopped_closeAfterFlush (by rwa [Session.tell, Session.stopped_offer])
  | hangUp | giveUp | mark | fail | cease => rfl
  | post | discard | skip | accept | halt | take | written | close | leave | left => exact h

/-- Either half ends in a stopped session only, and nothing follows until both have ended. -/
structure Ends (l : Link) (s : Session) : Prop where
  read : l.reader = .done → s.stopped
  wrote : ¬ l.Writing → s.stopped
  leaving : l.departure ≠ .pending → l.reader = .done ∧ l.writer = .done

namespace Ends

theorem mono (he : l.Ends s) (hmono : s.stopped → s'.stopped) : l.Ends s' :=
  ⟨fun h => hmono (he.read h), fun h => hmono (he.wrote h), he.leaving⟩

theorem pending (he : l.Ends s) (going : l.reader ≠ .done ∨ l.writer ≠ .done) :
    l.departure = .pending := by
  by_contra h
  exact going.elim (fun hr => hr (he.leaving h).1) fun hw => hw (he.leaving h).2

theorem setReader (he : l.Ends s) (going : l.reader ≠ .done) {reader : Reader}
    (hstop : reader = .done → s.stopped) : Ends { l with reader } s where
  read := hstop
  wrote := he.wrote
  leaving h := absurd (he.pending (.inl going)) h

theorem setWriter (he : l.Ends s) (going : l.writer ≠ .done) {writer : Writer}
    (hstop : ¬ Writing { l with writer } → s.stopped) : Ends { l with writer } s where
  read := he.read
  wrote := hstop
  leaving h := absurd (he.pending (.inr going)) h

theorem step (hs : l.Step s now e l' s') (he : l.Ends s) : l'.Ends s' := by
  have he' : l.Ends s' := he.mono hs.stopped_of_stopped
  cases hs with
  | reply | discard | skip => exact he'
  | post reading | quit reading => exact he'.setReader (by simp [reading]) fun h => (nomatch h)
  | hangUp _ receptive =>
    refine he'.setReader (fun h => ?_) fun _ => rfl
    obtain hr | ⟨_, hr⟩ := receptive <;> simp [hr] at h
  | accept posting => exact he'.setReader (by simp [posting]) fun h => by split at h <;> cases h
  | answer waiting => exact he'.setReader (by simp [waiting]) fun h => (nomatch h)
  | giveUp flushing => exact he'.setReader (by simp [flushing]) fun _ => rfl
  | halt stopped reading => exact he'.setReader reading fun _ => stopped
  | take taking => exact he'.setWriter (by simp [taking]) fun h => absurd (.inr ⟨_, rfl⟩) h
  | mark taking => exact he'.setWriter (by simp [taking]) fun _ => rfl
  | written writing => exact he'.setWriter (by simp [writing]) fun h => absurd (.inl rfl) h
  | fail writing => exact he'.setWriter (by simp [writing]) fun _ => rfl
  | cease writing =>
    refine he'.setWriter (fun h => ?_) fun _ => rfl
    obtain hw | ⟨_, hw⟩ := writing <;> simp [hw] at h
  | close closing =>
    refine he'.setWriter (by simp [closing]) fun _ => he'.wrote ?_
    rintro (hw | ⟨_, hw⟩) <;> simp [closing] at hw
  | leave read wrote => exact ⟨he'.read, he'.wrote, fun _ => ⟨read, wrote⟩⟩
  | left announced => exact ⟨he'.read, he'.wrote, fun _ => he'.leaving (by simp [announced])⟩

end Ends

/-! ### Units -/

structure Acted (reader : Reader) (units texts : List String) : Prop where
  inOrder : units <+: texts
  quitLast : ∀ u ∈ units.dropLast, Command.parse u ≠ .quit
  all : reader.active → units = texts ∧ ∀ u ∈ units, Command.parse u ≠ .quit

namespace Acted

variable {reader reader' : Reader} {units texts : List String} {text : String}

theorem pass (ha : Acted reader units texts) (h : reader'.active → reader.active) :
    Acted reader' units texts := ⟨ha.inOrder, ha.quitLast, fun hr => ha.all (h hr)⟩

theorem discard (ha : Acted reader units texts) (h : reader.active = false) (text : String) :
    Acted reader units (texts ++ [text]) :=
  ⟨ha.inOrder.trans (List.prefix_append _ _), ha.quitLast, fun hr => by simp [h] at hr⟩

theorem act (ha : Acted .reading units texts)
    (h : reader'.active → Command.parse text ≠ .quit) :
    Acted reader' (units ++ [text]) (texts ++ [text]) := by
  obtain ⟨rfl, hnone⟩ := ha.all rfl
  refine ⟨List.prefix_rfl, ?_, fun hr => ⟨rfl, ?_⟩⟩
  · rw [List.dropLast_concat]
    exact hnone
  · intro u hu
    rcases List.mem_append.1 hu with hu | hu
    · exact hnone u hu
    · rw [List.mem_singleton.1 hu]
      exact h hr

theorem input {i : Input} (hs : l.Step s now (.input i) l' s') (ha : Acted l.reader units texts) :
    Acted l'.reader (units ++ (l.unit? (.input i)).toList) (texts ++ i.text?.toList) := by
  cases hs with
  | reply reading _ planned =>
    rw [reading] at ha ⊢
    simp only [unit?, reading, if_true]
    exact ha.act fun _ hq => by simp [Command.plan_eq_quit_iff.2 hq] at planned
  | post reading _ planned =>
    rw [reading] at ha
    simp only [unit?, reading, if_true]
    exact ha.act fun _ hq => by simp [Command.plan_eq_quit_iff.2 hq] at planned
  | quit reading =>
    rw [reading] at ha
    simp only [unit?, reading, if_true]
    exact ha.act fun hr => (nomatch hr)
  | discard flushing =>
    simp only [unit?, flushing, reduceCtorEq, if_false, Option.toList_none, List.append_nil]
    rw [flushing] at ha
    exact ha.discard rfl _
  | skip =>
    simp only [unit?, Input.text?, Option.toList_none, List.append_nil]
    exact ha
  | hangUp ends =>
    simp only [unit?_of_ends ends, Input.text?_of_ends ends, Option.toList_none, List.append_nil]
    exact ha.pass fun hr => (nomatch hr)

theorem idle (hs : l.Step s now e l' s') (hn : ∀ i, e ≠ .input i)
    (ha : Acted l.reader units texts) : Acted l'.reader units texts := by
  cases hs with
  | accept posting => exact ha.pass fun _ => by rw [posting]; rfl
  | answer waiting => exact ha.pass fun _ => by rw [waiting]; rfl
  | giveUp | halt => exact ha.pass fun hr => (nomatch hr)
  | take | mark | written | fail | cease | close | leave | left => exact ha
  | reply | post | quit | discard | skip | hangUp => exact absurd rfl (hn _)

end Acted

theorem unit?_of_other (hn : ∀ input, e ≠ .input input) : l.unit? e = none := by
  cases e with
  | input input => exact absurd rfl (hn input)
  | _ => rfl

/-! ### Requests -/

def raised? (l : Link) (s : Session) (e : Event) : Option Request :=
  (l.unit? e).bind fun text => (Command.parse text).request? l.session s.profile.room

theorem raised?_of_reading (reading : l.reader = .reading) (text : String) :
    l.raised? s (.input (.unit (.text text))) =
      (Command.parse text).request? l.session s.profile.room := by
  rw [raised?, unit?, if_pos reading, Option.bind_some]

/-- What was asked of the hub, out of the requests that came of units. The last of them may be on
its way still, or was given up. -/
def Asked (l : Link) (requests submitted : List Request) : Prop :=
  ∃ asked, submitted = asked ++ l.farewell ∧ asked <+: requests ∧
    requests.length ≤ asked.length + 1 ∧
      (l.reader ≠ .done → requests = asked ++ l.reader.posting?.toList)

namespace Asked

variable {requests submitted : List Request}

theorem setWriter (ha : l.Asked requests submitted) (writer : Writer) :
    Asked { l with writer } requests submitted := ha

theorem setReader (ha : l.Asked requests submitted) {reader : Reader}
    (h : reader ≠ .done → l.reader ≠ .done ∧ reader.posting? = l.reader.posting?) :
    Asked { l with reader } requests submitted := by
  obtain ⟨asked, hsub, hpre, hlen, hreq⟩ := ha
  refine ⟨asked, hsub, hpre, hlen, fun hr => ?_⟩
  rw [hreq (h hr).1, (h hr).2]

theorem post (ha : l.Asked requests submitted) (reading : l.reader = .reading) (errand : Errand) :
    Asked { l with reader := .posting errand } (requests ++ [errand.request]) submitted := by
  obtain ⟨asked, hsub, -, -, hreq⟩ := ha
  have hall : requests = asked := by simpa [reading, Reader.posting?] using hreq
  subst hall
  exact ⟨requests, hsub, List.prefix_append _ _, by simp, fun _ => rfl⟩

theorem accept (ha : l.Asked requests submitted) (hp : l.departure = .pending) {errand : Errand}
    (posting : l.reader = .posting errand) {reader : Reader} (h : reader.posting? = none) :
    Asked { l with reader } requests (submitted ++ [errand.request]) := by
  obtain ⟨asked, hsub, -, -, hreq⟩ := ha
  have hall : requests = asked ++ [errand.request] := by simpa [posting, Reader.posting?] using hreq
  refine ⟨requests, ?_, List.prefix_rfl, Nat.le_succ _, fun _ => ?_⟩
  · simp [hsub, hall, farewell, hp]
  · simp [h]

theorem step (hs : l.Step s now e l' s') (he : l.Ends s) (ha : l.Asked requests submitted) :
    l'.Asked (requests ++ (l.raised? s e).toList) (submitted ++ (l.submission e).toList) := by
  cases hs with
  | reply reading _ planned =>
    rw [raised?_of_reading reading, Command.request?, planned]
    simpa [submission] using ha
  | post reading _ planned =>
    rw [raised?_of_reading reading, Command.request?, planned]
    simpa [submission] using ha.post reading _
  | quit reading _ planned =>
    rw [raised?_of_reading reading, Command.request?, planned]
    simpa [submission] using ha.setReader fun _ => ⟨by simp [reading], by rw [reading]; rfl⟩
  | discard flushing => simpa [raised?, unit?, flushing, submission] using ha
  | skip => simpa [raised?, unit?, submission] using ha
  | hangUp ends =>
    simpa [raised?, unit?_of_ends ends, submission] using ha.setReader fun h => absurd rfl h
  | accept posting =>
    have hp := he.pending (.inl (by simp [posting]))
    simpa [raised?, unit?, submission, posting] using
      ha.accept hp posting (by split <;> rfl)
  | answer waiting =>
    simpa [raised?, unit?, submission] using
      ha.setReader fun _ => ⟨by simp [waiting], by rw [waiting]; rfl⟩
  | giveUp | halt =>
    simpa [raised?, unit?, submission] using ha.setReader fun h => absurd rfl h
  | take | mark | written | fail | cease | close =>
    simpa [raised?, unit?, submission] using ha.setWriter _
  | leave _ _ pending =>
    obtain ⟨asked, hsub, hrest⟩ := ha
    refine ⟨asked, ?_, by simpa [raised?, unit?] using hrest⟩
    simp [hsub, farewell, pending, submission]
  | left announced =>
    obtain ⟨asked, hsub, hrest⟩ := ha
    refine ⟨asked, ?_, by simpa [raised?, unit?] using hrest⟩
    simp [hsub, farewell, announced, submission]

end Asked

/-! ### What is left to do -/

/-- How many events of its own a driver has left once its session has stopped. -/
def effort (l : Link) : Nat :=
  (if l.reader = .done then 0 else 1) + l.writer.effort + l.departure.effort

theorem effort_le (l : Link) : l.effort ≤ 6 := by
  have hreader : (if l.reader = .done then 0 else 1) ≤ 1 := by split <;> omega
  have hwriter : l.writer.effort ≤ 3 := by cases l.writer <;> simp [Writer.effort]
  have hdeparture : l.departure.effort ≤ 2 := by cases l.departure <;> simp [Departure.effort]
  unfold effort
  omega

theorem Step.effort_lt (hs : l.Step s now e l' s') (h : s.stopped) : l'.effort < l.effort := by
  cases hs with
  | reply _ running | post _ running | quit _ running | discard _ running | skip _ running
  | hangUp _ _ running | accept _ running | answer _ running | take _ running | mark _ running =>
    rw [h] at running
    cases running
  | giveUp flushing => simp [effort, flushing]
  | halt _ reading => simp [effort, reading]
  | written writing | fail writing => simp [effort, writing, Writer.effort]
  | cease writing => obtain hw | ⟨_, hw⟩ := writing <;> simp [effort, hw, Writer.effort]
  | close closing => simp [effort, closing, Writer.effort]
  | leave _ _ pending => simp [effort, pending, Departure.effort]
  | left announced => simp [effort, announced, Departure.effort]

theorem Step.unit?_of_stopped (hs : l.Step s now e l' s') (h : s.stopped) :
    l.unit? e = none ∧ e.taken? = none := by
  cases hs with
  | reply _ running | post _ running | quit _ running | discard _ running | skip _ running
  | hangUp _ _ running | accept _ running | answer _ running | take _ running | mark _ running =>
    rw [h] at running
    cases running
  | giveUp | halt | written | fail | cease | close | leave | left => exact ⟨rfl, rfl⟩

theorem exists_step_of_stopped (h : s.stopped) (hd : l.departure ≠ .complete) :
    ∃ e, (∀ input, e ≠ .input input) ∧ ∀ now, (l.step s now e).isSome := by
  by_cases hr : l.reader = .done
  · cases hw : l.writer with
    | taking | writing =>
      exact ⟨.writerStopped, by simp, fun _ => by simp [step, hw, h]⟩
    | closing => exact ⟨.closed, by simp, fun _ => by simp [step, hw]⟩
    | done =>
      cases hp : l.departure with
      | pending => exact ⟨.leave, by simp, fun _ => by simp [step, hr, hw, hp]⟩
      | announced => exact ⟨.left, by simp, fun _ => by simp [step, hp]⟩
      | complete => exact absurd hp hd
  · exact ⟨.readerStopped, by simp, fun _ => by simp [step, h, hr]⟩

end Link

end ChatRelay

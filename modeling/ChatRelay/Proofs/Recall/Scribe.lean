import ChatRelay.Proofs.Recall.Lines

/-! Logs that are written behind the hub's back. One writer has them; the hub leaves it jobs in a
queue and goes on, and whoever asks for history waits until its job is done. Whenever that is, the
logs are by then what they were to be when the job was left: the answer is the one that the hub
gives at once when its logs are written on the spot. -/

namespace ChatRelay

inductive Job
  | append (file : LogFile) (line : String)
  | load (file : LogFile) (limit : Nat)
  deriving DecidableEq, Repr

def Job.isLoad : Job → Bool
  | load .. => true
  | append .. => false

namespace Archive

def perform (a : Archive) : Job → Archive
  | .append file line => a.append file line
  | .load .. => a

def reply? (a : Archive) : Job → Option (Except Fault (List String))
  | .append .. => none
  | .load file limit => some (a.tail file limit)

def replies (a : Archive) : List Job → List (Except Fault (List String))
  | [] => []
  | job :: jobs => (a.reply? job).toList ++ (a.perform job).replies jobs

theorem replies_concat (a : Archive) (jobs : List Job) (job : Job) :
    a.replies (jobs ++ [job]) = a.replies jobs ++ ((jobs.foldl perform a).reply? job).toList := by
  induction jobs generalizing a with
  | nil => exact List.append_nil _
  | cons first jobs ih => simp only [List.cons_append, replies, ih, List.foldl_cons,
      List.append_assoc]

theorem length_replies (a : Archive) (jobs : List Job) :
    (a.replies jobs).length = jobs.countP Job.isLoad := by
  induction jobs generalizing a with
  | nil => rfl
  | cons job jobs ih =>
    rw [replies, List.length_append, ih, List.countP_cons, Nat.add_comm]
    cases job <;> rfl

end Archive

/-- The writer of the logs: what is written, the jobs that wait, and what was answered so far. -/
structure Scribe where
  archive : Archive
  queue : List Job
  replies : List (Except Fault (List String))

namespace Scribe

variable {s t : Scribe} {job : Job}

def start : Scribe := ⟨.empty, [], []⟩

def buffer : Nat := 1024

def submit? (s : Scribe) (job : Job) : Option Scribe :=
  if s.queue.length < buffer then some { s with queue := s.queue ++ [job] } else none

def work (s : Scribe) : Scribe :=
  match s.queue with
  | [] => s
  | job :: queue => ⟨s.archive.perform job, queue, s.replies ++ (s.archive.reply? job).toList⟩

def settled (s : Scribe) : Archive := s.queue.foldl Archive.perform s.archive

def promised (s : Scribe) : List (Except Fault (List String)) :=
  s.replies ++ s.archive.replies s.queue

/-- How many answers there are when some more jobs are done. -/
def due (s : Scribe) (jobs : Nat) : Nat := s.replies.length + (s.queue.take jobs).countP Job.isLoad

def asked (s : Scribe) : Nat := s.replies.length + s.queue.countP Job.isLoad

theorem submit?_eq_some_iff : s.submit? job = some t ↔
    s.queue.length < buffer ∧ t = { s with queue := s.queue ++ [job] } := by
  unfold submit?
  rw [Option.ite_none_right_eq_some, Option.some.injEq]
  exact and_congr_right fun _ => eq_comm

theorem length_promised (s : Scribe) : s.promised.length = s.asked := by
  rw [promised, List.length_append, Archive.length_replies]
  rfl

theorem settled_submit (h : s.submit? job = some t) : t.settled = s.settled.perform job := by
  obtain ⟨-, rfl⟩ := submit?_eq_some_iff.1 h
  simp only [settled, List.foldl_append, List.foldl_cons, List.foldl_nil]

theorem promised_submit (h : s.submit? job = some t) :
    t.promised = s.promised ++ (s.settled.reply? job).toList := by
  obtain ⟨-, rfl⟩ := submit?_eq_some_iff.1 h
  simp only [promised, Archive.replies_concat, settled, List.append_assoc]

theorem due_submit (h : s.submit? job = some t) (n : Nat) : s.due n ≤ t.due n := by
  obtain ⟨-, rfl⟩ := submit?_eq_some_iff.1 h
  simp only [due, List.take_append, List.countP_append]
  omega

theorem settled_work (s : Scribe) : s.work.settled = s.settled := by
  obtain ⟨archive, queue, replies⟩ := s
  cases queue <;> rfl

theorem promised_work (s : Scribe) : s.work.promised = s.promised := by
  obtain ⟨archive, queue, replies⟩ := s
  cases queue with
  | nil => rfl
  | cons job queue => exact List.append_assoc ..

theorem due_work (s : Scribe) (n : Nat) : s.work.due n = s.due (n + 1) := by
  obtain ⟨archive, queue, replies⟩ := s
  cases queue with
  | nil => simp only [work, due, List.take_nil]
  | cons job queue =>
    have hone : (archive.reply? job).toList.length = if job.isLoad then 1 else 0 := by
      cases job <;> rfl
    simp only [work, due, List.take_succ_cons, List.countP_cons, List.length_append, hone]
    omega

end Scribe

/-! ### The hub and its writer -/

def Hub.job? (h : Hub) : Hub.Event → Option Job
  | .request (.history id limit) =>
    match h.archive, h.session id with
    | some _, .ok s => some (.load (.ofScope s.profile.room) limit)
    | _, _ => none
  | e => (h.logged? e).map fun entry => .append entry.1 entry.2

/-- A hub whose logs are written by somebody else. -/
structure Office where
  hub : Hub
  scribe : Scribe

namespace Office

inductive Move
  | event (e : Hub.Event)
  | work
  deriving DecidableEq, Repr

def Move.event? : Move → Option Hub.Event
  | event e => some e
  | work => none

def events (ms : List Move) : List Hub.Event := ms.filterMap Move.event?

def start (limits : Limits) (stamp : String) : Office :=
  ⟨.start limits (some .empty) stamp, .start⟩

def move? (o : Office) : Move → Option Office
  | .work => some { o with scribe := o.scribe.work }
  | .event e =>
    match o.hub.job? e with
    | none => some { o with hub := o.hub.step e }
    | some job => (o.scribe.submit? job).map fun scribe => ⟨o.hub.step e, scribe⟩

def run? (o : Office) : List Move → Option Office
  | [] => some o
  | m :: ms => (o.move? m).bind (·.run? ms)

variable {o k : Office} {e : Hub.Event} {m : Move} {ms : List Move}

theorem run?_append (o : Office) (as bs : List Move) :
    o.run? (as ++ bs) = (o.run? as).bind (·.run? bs) := by
  induction as generalizing o with
  | nil => rfl
  | cons m ms ih =>
    rw [List.cons_append, run?, run?, Option.bind_assoc]
    congr 1
    funext k
    exact ih k

/-- The logs that the hub goes by are those of the writer once its jobs are done. -/
def Settled (o : Office) : Prop := o.hub.archive = some o.scribe.settled

theorem settled_start (limits : Limits) (stamp : String) : (start limits stamp).Settled := rfl

theorem Settled.job?_eq (hs : o.Settled) {id : SessionId} {s : Session}
    (hsession : o.hub.session id = .ok s) (limit : Nat) :
    o.hub.job? (.request (.history id limit)) = some (.load (.ofScope s.profile.room) limit) := by
  rw [Hub.job?, hs, hsession]

theorem Settled.archive_step (hs : o.Settled) (e : Hub.Event) :
    (o.hub.step e).archive =
      some ((o.hub.job? e).elim o.scribe.settled o.scribe.settled.perform) := by
  rw [Hub.archive_step, hs, Option.map_some, Hub.job?.eq_def]
  split
  · rename_i id limit
    have hquiet : o.hub.logged? (.request (.history id limit)) = none := rfl
    rw [hquiet, hs]
    cases o.hub.session id <;> rfl
  · cases o.hub.logged? e <;> rfl

theorem move?_cases (h : o.move? m = some k) :
    m = .work ∧ k = { o with scribe := o.scribe.work } ∨
      ∃ e, m = .event e ∧ k.hub = o.hub.step e ∧
        (o.hub.job? e = none ∧ k.scribe = o.scribe ∨
          ∃ job, o.hub.job? e = some job ∧ o.scribe.submit? job = some k.scribe) := by
  cases m with
  | work => exact .inl ⟨rfl, (Option.some.inj h).symm⟩
  | event e =>
    refine .inr ⟨e, rfl, ?_⟩
    rw [move?] at h
    cases hj : o.hub.job? e with
    | none =>
      rw [hj] at h
      cases h
      exact ⟨rfl, .inl ⟨rfl, rfl⟩⟩
    | some job =>
      rw [hj] at h
      obtain ⟨scribe, hsubmit, rfl⟩ := Option.map_eq_some_iff.1 h
      exact ⟨rfl, .inr ⟨job, rfl, hsubmit⟩⟩

theorem Settled.move (hs : o.Settled) (h : o.move? m = some k) : k.Settled := by
  rcases move?_cases h with ⟨-, rfl⟩ | ⟨e, -, hhub, ⟨hnone, hscribe⟩ | ⟨job, hjob, hsubmit⟩⟩
  · exact hs.trans (congrArg some o.scribe.settled_work.symm)
  · have harchive := hs.archive_step e
    rw [hnone] at harchive
    rw [Settled, hhub, hscribe]
    exact harchive
  · have harchive := hs.archive_step e
    rw [hjob] at harchive
    rw [Settled, hhub, Scribe.settled_submit hsubmit]
    exact harchive

structure Keeps (o : Office) (works : Nat) (k : Office) : Prop where
  promised : o.scribe.promised <+: k.scribe.promised
  due : ∀ n, o.scribe.due (n + works) ≤ k.scribe.due n

theorem keeps_move (h : o.move? m = some k) : o.Keeps ([m].count .work) k := by
  rcases move?_cases h with ⟨rfl, rfl⟩ | ⟨e, rfl, -, ⟨-, hscribe⟩ | ⟨job, -, hsubmit⟩⟩
  · have hpromised : o.scribe.promised <+: o.scribe.work.promised :=
      o.scribe.promised_work ▸ List.prefix_refl _
    exact ⟨hpromised, fun n => (o.scribe.due_work n).ge⟩
  · have hcount : [Move.event e].count .work = 0 := rfl
    rw [hcount]
    exact ⟨hscribe ▸ List.prefix_refl _, fun n => hscribe ▸ Nat.le_refl _⟩
  · have hcount : [Move.event e].count .work = 0 := rfl
    rw [hcount]
    refine ⟨?_, fun n => Scribe.due_submit hsubmit n⟩
    rw [Scribe.promised_submit hsubmit]
    exact List.prefix_append ..

theorem Keeps.trans {l : Office} {m n : Nat} (h : o.Keeps m k) (h' : k.Keeps n l) :
    o.Keeps (m + n) l where
  promised := h.promised.trans h'.promised
  due i := by
    have hfirst := h.due (i + n)
    have hsecond := h'.due i
    rw [Nat.add_comm m n, ← Nat.add_assoc]
    exact hfirst.trans hsecond

theorem run?_keeps (h : o.run? ms = some k) : o.Keeps (ms.count .work) k := by
  induction ms generalizing o with
  | nil =>
    cases h
    exact ⟨List.prefix_refl _, fun n => Nat.le_refl _⟩
  | cons m ms ih =>
    obtain ⟨l, hmove, hrun⟩ := Option.bind_eq_some_iff.1 h
    rw [← List.singleton_append, List.count_append]
    exact (keeps_move hmove).trans (ih hrun)

theorem run?_settled (hs : o.Settled) (h : o.run? ms = some k) :
    k.Settled ∧ k.hub = o.hub.run (events ms) := by
  induction ms generalizing o with
  | nil =>
    cases h
    exact ⟨hs, rfl⟩
  | cons m ms ih =>
    obtain ⟨l, hmove, hrun⟩ := Option.bind_eq_some_iff.1 h
    obtain ⟨hk, hhub⟩ := ih (hs.move hmove) hrun
    refine ⟨hk, hhub.trans ?_⟩
    rcases move?_cases hmove with ⟨rfl, rfl⟩ | ⟨e, rfl, hl, -⟩
    · rfl
    · rw [hl]
      rfl

/-- What is answered to a request for the history of a scope in which this was said. -/
structure Recalls (o : Office) (id : SessionId) (limit : Nat) (scope : Option String)
    (said lines : List String) : Prop where
  suffix : lines <:+ said
  length : lines.length = min limit said.length
  answer : o.hub.handle (.history id limit) = (.ok (.history scope lines), o.hub)
  /-- When the logs are written behind the hub's back, the answer in the place of this request is
  the same, whatever happens meanwhile. -/
  reply : ∀ {after k reply}, o.run? (.event (.request (.history id limit)) :: after) = some k →
    k.scribe.replies[o.scribe.asked]? = some reply → reply = .ok lines
  given : ∀ {after k}, o.run? (.event (.request (.history id limit)) :: after) = some k →
    o.scribe.queue.length < after.count .work →
      k.scribe.replies[o.scribe.asked]? = some (.ok lines)

theorem promised_request (hs : o.Settled) {id : SessionId} {s : Session}
    (hsession : o.hub.session id = .ok s) {limit : Nat}
    (h : o.move? (.event (.request (.history id limit))) = some k) :
    k.scribe.promised =
      o.scribe.promised ++ [o.scribe.settled.tail (.ofScope s.profile.room) limit] ∧
    k.scribe.queue.length = o.scribe.queue.length + 1 := by
  have hjob := hs.job?_eq hsession limit
  rcases move?_cases h with ⟨hwork, -⟩ | ⟨e, he, -, ⟨hnone, -⟩ | ⟨job, hsome, hsubmit⟩⟩
  · cases hwork
  · cases he
    cases hjob.symm.trans hnone
  · cases he
    cases hjob.symm.trans hsome
    refine ⟨Scribe.promised_submit hsubmit, ?_⟩
    obtain ⟨-, hqueue⟩ := Scribe.submit?_eq_some_iff.1 hsubmit
    rw [hqueue, List.length_append, List.length_singleton]

theorem reply_of_tail (hs : o.Settled) {id : SessionId} {s : Session}
    (hsession : o.hub.session id = .ok s) {limit : Nat} {after : List Move}
    {answer : Except Fault (List String)}
    (htail : o.scribe.settled.tail (.ofScope s.profile.room) limit = answer)
    (h : o.run? (.event (.request (.history id limit)) :: after) = some k) :
    k.scribe.promised[o.scribe.asked]? = some answer ∧
      (o.scribe.queue.length < after.count .work →
        o.scribe.asked < k.scribe.replies.length) := by
  obtain ⟨l, hmove, hrest⟩ := Option.bind_eq_some_iff.1 h
  obtain ⟨hpromised, hqueue⟩ := promised_request hs hsession hmove
  have hkeeps := run?_keeps hrest
  have hasked : l.scribe.asked = o.scribe.asked + 1 := by
    rw [← Scribe.length_promised, hpromised, List.length_append, Scribe.length_promised]
    rfl
  constructor
  · obtain ⟨more, hmore⟩ := hkeeps.promised
    have hlt : o.scribe.asked < l.scribe.promised.length := by
      rw [Scribe.length_promised, hasked]
      exact Nat.lt_succ_self _
    rw [← hmore, List.getElem?_append_left hlt, hpromised, htail, ← Scribe.length_promised,
      List.getElem?_concat_length]
  · intro hworks
    have hall : l.scribe.due (0 + after.count .work) = l.scribe.asked := by
      rw [Scribe.due, List.take_of_length_le (by omega)]
      rfl
    have hdue := hkeeps.due 0
    have hnow : k.scribe.due 0 = k.scribe.replies.length := rfl
    omega

/-- The history of a scope is the last of what was said there before it was asked for. -/
theorem history_recalls {limits : Limits} {stamp : String} (one : OneLine stamp)
    (hf : (Hub.start limits (some .empty) stamp).feasible (events ms))
    (plain : ∀ e ∈ events ms, Hub.Event.Plain e) (tidy : ∀ e ∈ events ms, Hub.Event.Tidy e)
    (hrun : (start limits stamp).run? ms = some o) {id : SessionId} {s : Session}
    (hsession : o.hub.session id = .ok s)
    (fits : (LogFile.ofScope s.profile.room).nameTooLong = false) (limit : Nat) :
    ∃ lines, o.Recalls id limit s.profile.room
      ((Hub.start limits (some .empty) stamp).chatLines (.ofScope s.profile.room) (events ms))
      lines := by
  obtain ⟨hsettled, hhub⟩ := run?_settled (settled_start limits stamp) hrun
  obtain ⟨a, harchive, hholds⟩ := Hub.holds_chatLines one plain tidy hf fits
  have hlogs : some o.scribe.settled = some a := by
    rw [← hsettled, hhub]
    exact harchive
  cases hlogs
  generalize Hub.chatLines _ _ _ = said at hholds ⊢
  have htail := hholds.tail fits limit
  refine ⟨_, Text.lastN_suffix limit _, Text.length_lastN limit _, ?_, ?_, ?_⟩
  · have hhistory : o.hub.history id limit = .ok (s.profile.room, Text.lastN limit said) := by
      rw [Hub.history, hsettled, hsession]
      dsimp only [bind, Except.bind]
      rw [htail]
      rfl
    rw [Hub.handle, hhistory]
    rfl
  · intro after k reply hafter hreply
    have hplace := (reply_of_tail hsettled hsession htail hafter).1
    obtain ⟨hlt, -⟩ := List.getElem?_eq_some_iff.1 hreply
    rw [Scribe.promised, List.getElem?_append_left hlt, hreply, Option.some.injEq] at hplace
    exact hplace
  · intro after k hafter hworks
    obtain ⟨hplace, hlt⟩ := reply_of_tail hsettled hsession htail hafter
    rwa [Scribe.promised, List.getElem?_append_left (hlt hworks)] at hplace

def bustle : List Move :=
  [.event (.create "a" .line 16), .event (.create "b" .line 16), .event (.request (.join 0)),
    .event (.request (.join 1)), .event (.request (.chat 0 "one")), .work, .event (.tick "noon"),
    .event (.request (.register 0 "x")), .event (.request (.chat 0 "two")),
    .event (.request (.joinRoom 1 "r")), .event (.request (.chat 1 "aside")),
    .event (.request (.chat 0 "three"))]

def afterthought : List Move :=
  [.event (.request (.history 0 2)), .event (.request (.chat 0 "four")), .work, .work, .work, .work]

theorem history_recalls_bustle :
    OneLine "" ∧ (Hub.start .standard (some .empty) "").feasible (events bustle) ∧
      (∀ e ∈ events bustle, Hub.Event.Plain e) ∧ (∀ e ∈ events bustle, Hub.Event.Tidy e) ∧
      ∃ o s, (start .standard "").run? bustle = some o ∧ o.hub.session 0 = .ok s ∧
        (LogFile.ofScope s.profile.room).nameTooLong = false ∧
        o.Recalls 0 2 none [" [a]: one", "noon [x]: two", "noon [x]: three"]
          ["noon [x]: two", "noon [x]: three"] ∧
        ∃ k, o.run? afterthought = some k ∧
          k.scribe.replies[o.scribe.asked]? = some (.ok ["noon [x]: two", "noon [x]: three"]) := by
  have one : OneLine "" := by decide
  have hf : (Hub.start .standard (some .empty) "").feasible (events bustle) := by decide
  have plain : ∀ e ∈ events bustle, Hub.Event.Plain e := by decide
  have tidy : ∀ e ∈ events bustle, Hub.Event.Tidy e := by decide
  refine ⟨one, hf, plain, tidy, ?_⟩
  obtain ⟨k, hboth⟩ : ∃ k, (start .standard "").run? (bustle ++ afterthought) = some k :=
    Option.isSome_iff_exists.1 (by decide +kernel)
  rw [run?_append] at hboth
  obtain ⟨o, hrun, hafter⟩ := Option.bind_eq_some_iff.1 hboth
  have hhub : o.hub = (Hub.start .standard (some .empty) "").run (events bustle) :=
    (run?_settled (settled_start _ _) hrun).2
  have hadmitted : 0 ∈ ((Hub.start .standard (some .empty) "").run (events bustle)).admitted := by
    decide +kernel
  obtain ⟨s, hs⟩ := Hub.exists_session_of_mem (Hub.reachable_run hf).grounded hadmitted
  rw [← hhub] at hs
  have hroom : s.profile.room = none := by
    rw [← Hub.profile_of_session hs, hhub]
    decide +kernel
  have fits : (LogFile.ofScope s.profile.room).nameTooLong = false := by
    rw [hroom]
    decide
  obtain ⟨lines, hlines⟩ := history_recalls one hf plain tidy hrun hs fits 2
  have hsaid : (Hub.start .standard (some .empty) "").chatLines (.ofScope none) (events bustle) =
      [" [a]: one", "noon [x]: two", "noon [x]: three"] := by decide +kernel
  rw [hroom, hsaid] at hlines
  have hlast : lines = ["noon [x]: two", "noon [x]: three"] :=
    (List.suffix_iff_eq_drop.1 hlines.suffix).trans (by rw [hlines.length]; rfl)
  subst hlast
  have hqueue : o.scribe.queue.length = 3 := by
    have hthree : ((start .standard "").run? bustle).map (·.scribe.queue.length) = some 3 := by
      decide +kernel
    rw [hrun] at hthree
    exact Option.some.inj hthree
  have hworks : o.scribe.queue.length < afterthought.tail.count .work := by
    rw [hqueue]
    decide
  exact ⟨o, s, hrun, hs, fits, hlines, k, hafter, hlines.given hafter hworks⟩

end Office
end ChatRelay

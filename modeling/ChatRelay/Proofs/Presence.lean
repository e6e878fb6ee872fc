import ChatRelay.Proofs.Drain
import ChatRelay.Proofs.Notices.Handle
import Mathlib.Data.Multiset.MapFold

/-! Who is there, as those know it who only listen. The notices of arrivals, departures and new
nicknames are the changes of a list of names; whoever starts with the names of all who are there,
and misses no notice, always knows the names of all who are there. -/

namespace ChatRelay

inductive Change
  | arrived (name : String)
  | departed (name : String)
  | renamed (old new : String)
  deriving DecidableEq, Repr

namespace Change

def apply (names : Multiset String) : Change → Multiset String
  | arrived name => name ::ₘ names
  | departed name => names.erase name
  | renamed old new => new ::ₘ names.erase old

def replay (names : Multiset String) (changes : List Change) : Multiset String :=
  changes.foldl apply names

theorem replay_append (names : Multiset String) (as bs : List Change) :
    replay names (as ++ bs) = replay (replay names as) bs := List.foldl_append

end Change

def Message.change? : Message → Option Change
  | .arrived name => some (.arrived name)
  | .departed name => some (.departed name)
  | .nicknameAnnounced old new => some (.renamed old new)
  | _ => none

/-- Words that come from nobody but the relay itself: raw broadcasts may say anything. -/
def Request.raw : Request → Bool
  | .broadcast .. | .broadcastIn .. => true
  | _ => false

namespace Hub

section Following

variable (h : Hub) (o : SessionId)

def ownRename : Request → Option Change
  | .register id nickname =>
    if id = o ∧ (h.handle (.register id nickname)).1 = .ok .done then
      some (.renamed (h.nameOf o) nickname)
    else none
  | _ => none

/-- What a session learns of who is there: its own renames, and the notices on its queue. -/
def learns : Event → List Change
  | .request request =>
    (h.ownRename o request).toList ++ (h.queued request o).filterMap Message.change?
  | _ => []

def changeLog (h : Hub) (o : SessionId) : List Event → List Change
  | [] => []
  | e :: es => h.learns o e ++ (h.step e).changeLog o es

def keepsUp : Event → Bool
  | .request request => h.queued request o = h.news request o
  | _ => true

/-- Whether a session stays admitted, and misses nothing that it is told. -/
def attends (h : Hub) (o : SessionId) : List Event → Bool
  | [] => h.admitted.contains o
  | e :: es => h.admitted.contains o && h.keepsUp o e && (h.step e).attends o es

end Following

variable {h k : Hub} {o id : SessionId} {e : Event}

theorem changeLog_concat (h : Hub) (o : SessionId) (es : List Event) (e : Event) :
    h.changeLog o (es ++ [e]) = h.changeLog o es ++ (h.run es).learns o e := by
  induction es generalizing h with
  | nil => exact List.append_nil _
  | cons d ds ih =>
    have hstep := ih (h.step d)
    rw [List.cons_append, changeLog, hstep, changeLog, run, List.append_assoc]

theorem mem_of_attends {es : List Event} (ha : h.attends o es) : o ∈ h.admitted := by
  cases es with
  | nil => exact List.contains_iff_mem.1 ha
  | cons e es =>
    rw [attends, Bool.and_eq_true, Bool.and_eq_true] at ha
    exact List.contains_iff_mem.1 ha.1.1

theorem attends_after {as bs : List Event} (ha : h.attends o (as ++ bs)) :
    (h.run as).attends o bs := by
  induction as generalizing h with
  | nil => exact ha
  | cons e es ih =>
    rw [List.cons_append, attends, Bool.and_eq_true] at ha
    exact ih ha.2

/-! ### The names of all who are there -/

def addressOf (h : Hub) (id : SessionId) : String := ((h.pool.get? id).map (·.remoteId)).getD ""

theorem nameOf_eq (h : Hub) (id : SessionId) :
    h.nameOf id = (h.ledger.profile id).nickname.getD (h.addressOf id) := by
  unfold nameOf addressOf
  cases hs : h.pool.get? id with
  | none =>
    have hp : h.ledger.profile id = .fresh := by
      simp [ledger, Pool.profile, Pool.view, hs]
    rw [hp]
    rfl
  | some s =>
    have hp : h.ledger.profile id = s.profile := Pool.view_of_get? hs
    rw [hp]
    rfl

theorem addressOf_update {f : Session → Session} (hf : ∀ s, (f s).remoteId = s.remoteId)
    (i : SessionId) : (h.update id f).addressOf i = h.addressOf i := by
  unfold addressOf
  rw [update, Pool.get?_update]
  split
  · cases h.pool.get? i with
    | none => rfl
    | some s => exact hf s
  · rfl

theorem addressOf_step {i : SessionId} (hi : i < h.ledger.size) :
    (h.step e).addressOf i = h.addressOf i := by
  cases e with
  | create remoteId transport capacity =>
    have hne : i ≠ h.pool.size := Nat.ne_of_lt hi
    rw [step, create, addressOf, Pool.get?_add, if_neg hne]
    rfl
  | act id a =>
    refine addressOf_update (fun s => ?_) i
    rcases s.bare_act a with hb | hb
    · exact (congrArg Session.remoteId hb :)
    · exact (congrArg Session.remoteId hb :)
  | expire id => exact addressOf_update (f := (·.expire)) (fun _ => rfl) i
  | tick stamp => rfl
  | request request =>
    rw [step, addressOf, get?_handle, Option.map_map]
    unfold addressOf
    congr 2
    funext s
    exact s.remoteId_tellAll _

def names (h : Hub) : Multiset String := (h.admitted : Multiset SessionId).map h.nameOf

theorem names_users (hg : h.ledger.Grounded) (viewer : SessionId) :
    (((h.users viewer).map (·.name) : List String) : Multiset String) = h.names := by
  unfold users names
  rw [Multiset.map_coe, Multiset.coe_eq_coe]
  refine ((List.mergeSort_perm _ _).map _).trans (List.Perm.of_eq ?_)
  have hall : ∀ ids : List SessionId, (∀ i ∈ ids, i < h.pool.size) →
      (ids.filterMap fun id => (h.pool.get? id).map fun s =>
        (⟨s.displayName, decide (id = viewer)⟩ : UserEntry)).map (·.name) = ids.map h.nameOf := by
    intro ids hids
    induction ids with
    | nil => rfl
    | cons id ids ih =>
      obtain ⟨s, hs⟩ := Option.isSome_iff_exists.1
        (Pool.isSome_get?_iff.2 (hids id List.mem_cons_self))
      have hrest := ih fun i hi => hids i (List.mem_cons_of_mem _ hi)
      rw [List.filterMap_cons, hs, Option.map_some, List.map_cons, hrest, List.map_cons,
        nameOf_of_get? hs]
  exact hall h.admitted hg.known

theorem names_of_same (hadmitted : k.admitted = h.admitted)
    (hnames : ∀ i ∈ h.admitted, k.nameOf i = h.nameOf i) : k.names = h.names := by
  unfold names
  rw [hadmitted]
  exact Multiset.map_congr rfl fun i hi => hnames i (Multiset.mem_coe.1 hi)

theorem names_cons (hg : h.ledger.Grounded) (ha : id ∈ h.admitted) :
    h.names = h.nameOf id ::ₘ
      ((h.admitted.filter (· ≠ id) : List SessionId) : Multiset SessionId).map h.nameOf := by
  have hperm : (h.admitted : Multiset SessionId) =
      id ::ₘ ((h.admitted.filter (· ≠ id) : List SessionId) : Multiset SessionId) :=
    Multiset.coe_eq_coe.2 (hg.perm_cons ha)
  rw [names, hperm, Multiset.map_cons]

theorem nameOf_step (he : h.allows e) {i : SessionId} (hi : i < h.ledger.size)
    (hne : ∀ nickname, e ≠ .request (.register i nickname)) :
    (h.step e).nameOf i = h.nameOf i := by
  have haddress := addressOf_step (e := e) hi
  rcases (ledger_step he).nickname_cases i with hn | ⟨nickname, heq, -⟩
  · rw [nameOf_eq, nameOf_eq, hn, haddress]
  · exact absurd heq (hne nickname)

/-! ### What changes them -/

def changes (h : Hub) (request : Request) (o : SessionId) : List Change :=
  (h.news request o).filterMap Message.change?

theorem changes_farewell (h : Hub) (id : SessionId) (name : String) (o : SessionId) :
    (Notice.news (h.farewell id name) o).filterMap Message.change? = [] := by
  unfold farewell
  split
  · rfl
  · split
    · rw [Notice.news_singleton]
      split <;> rfl
    · rfl

theorem changes_join {s : Session} (going : h.stopped = false) (hs : h.pool.get? id = some s)
    (ho : o ∈ h.admitted) (hne : o ≠ id) : h.changes (.join id) o = [.arrived s.remoteId] := by
  have hheard : (h.admitted.contains o || o == id) = true := by
    rw [List.contains_iff_mem.2 ho, Bool.true_or]
  rw [changes, news, notices, going, if_neg Bool.false_ne_true, hs]
  dsimp only
  rw [Notice.news_append, Notice.news_toOne, if_neg hne, Notice.news_singleton, if_pos hheard]
  rfl

theorem changes_leave (hears : h.ledger.hears id) (ho : o ∈ h.admitted) (hne : o ≠ id) :
    h.changes (.leave id) o = [.departed (h.nameOf id)] := by
  have hroom : (Notice.news ((h.ledger.profile id).room.elim [] (h.farewell id)) o).filterMap
      Message.change? = [] := by
    cases (h.ledger.profile id).room with
    | none => rfl
    | some name => exact h.changes_farewell id name o
  rw [changes, news, notices, if_pos hears, Notice.news_append, List.filterMap_append, hroom,
    Notice.news_singleton, if_pos (audience_toAll.2 ⟨ho, hne⟩)]
  rfl

theorem changes_register {nickname : String} (claimed : h.ledger.claims id nickname)
    (ho : o ∈ h.admitted) : h.changes (.register id nickname) o =
      if o = id then [] else [.renamed (h.nameOf id) nickname] := by
  rw [changes, news, notices, if_pos claimed, Notice.news_singleton]
  by_cases hne : o = id
  · rw [if_neg fun ha => (audience_toAll.1 ha).2 hne, if_pos hne]
    rfl
  · rw [if_pos (audience_toAll.2 ⟨ho, hne⟩), if_neg hne]
    rfl

theorem changes_eq_nil {request : Request} (genuine : request.raw = false)
    (hj : ∀ i, request ≠ .join i) (hl : ∀ i, request ≠ .leave i)
    (hr : ∀ i nickname, request ≠ .register i nickname) : h.changes request o = [] := by
  have hone : ∀ {n : Notice}, n.message.change? = none →
      (Notice.news [n] o).filterMap Message.change? = [] := by
    intro n hn
    rw [Notice.news_singleton]
    split
    · rw [List.filterMap_cons, hn, List.filterMap_nil]
    · rfl
  unfold changes news
  cases request with
  | join i => exact absurd rfl (hj i)
  | leave i => exact absurd rfl (hl i)
  | register i nickname => exact absurd rfl (hr i nickname)
  | broadcast => cases genuine
  | broadcastIn => cases genuine
  | joinRoom id name =>
    rw [notices, welcome]
    split
    · split
      · exact hone rfl
      · rfl
    · rfl
  | leaveRoom id name =>
    rw [notices]
    split
    · exact h.changes_farewell id name o
    · rfl
  | chat id body =>
    rw [notices, chatter]
    split
    · split
      · exact hone rfl
      · next name _ =>
        cases h.rooms.get? name with
        | none => rfl
        | some room => exact hone rfl
    · rfl
  | whisper id target body =>
    rw [notices]
    split
    · cases h.holder? target with
      | none => rfl
      | some receiver => exact hone rfl
    · rfl
  | history | users | status | shutDown => rfl

theorem names_join (hg : h.ledger.Grounded) (going : h.stopped = false) (out : id ∉ h.admitted)
    (fresh : (h.ledger.profile id).nickname = none) (ho : o ∈ h.admitted)
    (he : h.allows (.request (.join id))) :
    (h.step (.request (.join id))).names = Change.replay h.names (h.changes (.join id) o) := by
  have hne : o ≠ id := fun heq => out (heq ▸ ho)
  have hadmitted : (h.step (.request (.join id))).admitted = (h.ledger.join id).admitted :=
    congrArg Ledger.admitted (h.ledger_handle (.join id))
  have hname : ∀ {i}, i < h.ledger.size → (h.step (.request (.join id))).nameOf i = h.nameOf i :=
    fun hi => nameOf_step he hi fun _ heq => nomatch heq
  cases hs : h.pool.get? id with
  | none =>
    have hsize : h.ledger.size ≤ id := by
      refine Nat.le_of_not_lt fun hlt => ?_
      have hsome := Pool.isSome_get?_iff.2 hlt
      rw [hs] at hsome
      cases hsome
    have hnews : h.changes (.join id) o = [] := by
      rw [changes, news, notices, going, if_neg Bool.false_ne_true, hs]
      rfl
    rw [Ledger.join, if_pos (.inr (.inl hsize))] at hadmitted
    rw [hnews]
    exact names_of_same hadmitted fun i hi => hname (hg.known i hi)
  | some s =>
    have hsize : id < h.ledger.size := Pool.lt_size_of_get? hs
    have haddress : h.nameOf id = s.remoteId := by
      rw [nameOf_eq, fresh, addressOf, hs]
      rfl
    have hn : ¬ (h.ledger.stopped ∨ h.ledger.size ≤ id ∨ id ∈ h.ledger.admitted) := by
      rintro (hc | hc | hc)
      · exact absurd (hc.symm.trans going) Bool.noConfusion
      · exact Nat.not_le.2 hsize hc
      · exact out hc
    rw [Ledger.join, if_neg hn] at hadmitted
    have hperm : ((h.admitted ++ [id] : List SessionId) : Multiset SessionId) = id ::ₘ h.admitted :=
      Multiset.coe_eq_coe.2 (List.perm_append_singleton id h.admitted)
    have hothers : (h.admitted : Multiset SessionId).map (h.step (.request (.join id))).nameOf =
        h.names := Multiset.map_congr rfl fun i hi => hname (hg.known i (Multiset.mem_coe.1 hi))
    rw [changes_join going hs ho hne]
    unfold names
    rw [hadmitted]
    show ((h.admitted ++ [id] : List SessionId) : Multiset SessionId).map _ = _
    rw [hperm, Multiset.map_cons, hname hsize, haddress, hothers]
    rfl

theorem names_leave (hg : h.ledger.Grounded) (going : h.stopped = false) (ho : o ∈ h.admitted)
    (hstays : o ∈ (h.step (.request (.leave id))).admitted) :
    (h.step (.request (.leave id))).names = Change.replay h.names (h.changes (.leave id) o) := by
  have hledger : (h.step (.request (.leave id))).ledger = h.ledger.leave id := h.ledger_leave id
  have hadmitted : (h.step (.request (.leave id))).admitted = (h.ledger.leave id).admitted :=
    congrArg Ledger.admitted hledger
  have hname : ∀ {i}, i ∈ h.admitted → (h.step (.request (.leave id))).nameOf i = h.nameOf i :=
    fun hi => nameOf_step rfl (hg.known _ hi) fun _ heq => nomatch heq
  have hears : h.ledger.hears id ↔ id ∈ h.admitted := by
    rw [Ledger.hears_iff, hg.knows_iff]
    exact and_iff_right going
  by_cases ha : id ∈ h.admitted
  · rw [Ledger.leave, if_pos (hg.knows_iff.2 ha)] at hadmitted
    have hgone : (h.step (.request (.leave id))).admitted = h.admitted.filter (· ≠ id) := hadmitted
    have hne : o ≠ id := by
      rw [hgone] at hstays
      exact of_decide_eq_true (List.mem_filter.1 hstays).2
    have hothers : (h.step (.request (.leave id))).names =
        ((h.admitted.filter (· ≠ id) : List SessionId) : Multiset SessionId).map h.nameOf := by
      unfold names
      rw [hgone]
      exact Multiset.map_congr rfl fun i hi =>
        hname (List.mem_filter.1 (Multiset.mem_coe.1 hi)).1
    rw [changes_leave (hears.2 ha) ho hne, names_cons hg ha, hothers]
    exact (Multiset.erase_cons_head _ _).symm
  · have hnews : h.changes (.leave id) o = [] := by
      rw [changes, news, notices, if_neg (mt hears.1 ha)]
      rfl
    rw [Ledger.leave, if_neg (mt hg.knows_iff.1 ha)] at hadmitted
    rw [hnews]
    exact names_of_same hadmitted fun i hi => hname hi

theorem answer_register {nickname : String} (claimed : h.ledger.claims id nickname) :
    (h.handle (.register id nickname)).1 = .ok .done := by
  obtain ⟨s, hq⟩ := exists_requester_iff.2 claimed.1
  have hn : Name.check .nickname h.limits.nameLength nickname = .ok () :=
    Name.check_eq_ok_iff.2 claimed.2.1
  have hf : h.holder? nickname = none := h.holder?_eq nickname ▸ claimed.2.2
  rw [handle, register, hq, hn]
  dsimp only [bind, Except.bind]
  rw [hf]
  rfl

theorem holder_of_answer_register {nickname : String}
    (hd : (h.handle (.register id nickname)).1 = .ok .done)
    (hc : ¬ h.ledger.claims id nickname) : h.ledger.holder? nickname = some id := by
  rw [handle, register, holder?_eq] at hd
  cases hq : h.requester id with
  | error fault =>
    rw [hq] at hd
    cases hd
  | ok s =>
    cases hn : Name.check .nickname h.limits.nameLength nickname with
    | error fault =>
      rw [hq, hn] at hd
      cases hd
    | ok =>
      cases hh : h.ledger.holder? nickname with
      | none => exact absurd ⟨hears_of_requester hq, Name.check_eq_ok_iff.1 hn, hh⟩ hc
      | some holder =>
        by_cases hid : holder = id
        · rw [hid]
        · rw [hq, hn, hh] at hd
          dsimp only [bind, Except.bind] at hd
          rw [if_neg hid] at hd
          cases hd

theorem admitted_register (id : SessionId) (nickname : String) :
    (h.step (.request (.register id nickname))).admitted = h.admitted :=
  (ledger_step rfl).admitted_eq (fun _ heq => nomatch heq) fun _ heq => nomatch heq

theorem names_register_of_claims {nickname : String} (hg : h.ledger.Grounded)
    (ho : o ∈ h.admitted) (claimed : h.ledger.claims id nickname) :
    (h.step (.request (.register id nickname))).names =
      Change.replay h.names ((h.ownRename o (.register id nickname)).toList ++
        h.changes (.register id nickname) o) := by
  have ha : id ∈ h.admitted := (Ledger.knows_iff.1 (Ledger.hears_iff.1 claimed.1).2).1
  have hstep : h.ledger.Step (.request (.register id nickname))
      (h.step (.request (.register id nickname))).ledger := ledger_step rfl
  have hnew : (h.step (.request (.register id nickname))).nameOf id = nickname := by
    have hledger : (h.step (.request (.register id nickname))).ledger =
        h.ledger.register id nickname := h.ledger_register id nickname
    rw [nameOf_eq, hledger, Ledger.register, if_pos claimed, Ledger.profile_rename_self]
    rfl
  have hothers : ((h.admitted.filter (· ≠ id) : List SessionId) : Multiset SessionId).map
      (h.step (.request (.register id nickname))).nameOf =
        ((h.admitted.filter (· ≠ id) : List SessionId) : Multiset SessionId).map h.nameOf := by
    apply Multiset.map_congr rfl
    intro i hf
    obtain ⟨hi, hne⟩ := List.mem_filter.1 (Multiset.mem_coe.1 hf)
    refine nameOf_step rfl (hg.known i hi) fun _ heq => ?_
    cases heq
    exact of_decide_eq_true hne rfl
  have hafter := names_cons (hg.step hstep) ((admitted_register id nickname).symm ▸ ha)
  rw [admitted_register, hnew, hothers] at hafter
  -- whether it is one's own or another's, one learns of it once
  have hlearned : (h.ownRename o (.register id nickname)).toList ++
      h.changes (.register id nickname) o = [.renamed (h.nameOf id) nickname] := by
    rw [changes_register claimed ho, ownRename]
    by_cases hne : o = id
    · rw [if_pos ⟨hne.symm, answer_register claimed⟩, if_pos hne, hne]
      rfl
    · rw [if_neg fun hc => hne hc.1.symm, if_neg hne]
      rfl
  rw [hlearned, hafter, names_cons hg ha]
  exact congrArg (nickname ::ₘ ·) (Multiset.erase_cons_head _ _).symm

theorem names_register_of_not_claims {nickname : String} (hg : h.ledger.Grounded)
    (hi : h.ledger.Indexed) (ho : o ∈ h.admitted) (idle : ¬ h.ledger.claims id nickname) :
    (h.step (.request (.register id nickname))).names =
      Change.replay h.names ((h.ownRename o (.register id nickname)).toList ++
        h.changes (.register id nickname) o) := by
  have hledger : (h.step (.request (.register id nickname))).ledger =
      h.ledger.register id nickname := h.ledger_register id nickname
  rw [Ledger.register, if_neg idle] at hledger
  have hsame : (h.step (.request (.register id nickname))).names = h.names := by
    apply names_of_same (admitted_register id nickname)
    intro i ha
    rw [nameOf_eq, nameOf_eq, hledger, addressOf_step (hg.known i ha)]
  have hsilent : h.changes (.register id nickname) o = [] := by
    rw [changes, news, notices, if_neg idle]
    rfl
  rw [hsame, hsilent, List.append_nil, ownRename]
  by_cases hd : id = o ∧ (h.handle (.register id nickname)).1 = .ok .done
  · -- to ask for one's own nickname again takes the place of nobody else
    obtain ⟨hget, -⟩ := Ledger.holder?_eq_some_iff.1 (holder_of_answer_register hd.2 idle)
    obtain ⟨ha, hp⟩ := hi hget
    have hown : h.nameOf o = nickname := by
      rw [← hd.1, nameOf_eq, hp]
      rfl
    have hmem : nickname ∈ h.names :=
      Multiset.mem_map.2 ⟨o, Multiset.mem_coe.2 ho, hown⟩
    rw [if_pos hd, hown]
    exact (Multiset.cons_erase hmem).symm
  · rw [if_neg hd]
    rfl

theorem names_register {nickname : String} (hg : h.ledger.Grounded) (hi : h.ledger.Indexed)
    (ho : o ∈ h.admitted) : (h.step (.request (.register id nickname))).names =
      Change.replay h.names ((h.ownRename o (.register id nickname)).toList ++
        h.changes (.register id nickname) o) := by
  by_cases claimed : h.ledger.claims id nickname
  · exact names_register_of_claims hg ho claimed
  · exact names_register_of_not_claims hg hi ho claimed

theorem names_step (hg : h.ledger.Grounded) (hi : h.ledger.Indexed) (going : h.stopped = false)
    (he : h.allows e) (genuine : ∀ request, e = .request request → request.raw = false)
    (fresh : ∀ id, e = .request (.join id) →
      id ∉ h.admitted ∧ (h.ledger.profile id).nickname = none)
    (ho : o ∈ h.admitted) (hstays : o ∈ (h.step e).admitted) (keeps : h.keepsUp o e) :
    (h.step e).names = Change.replay h.names (h.learns o e) := by
  have hquiet : (∀ i, e ≠ .request (.join i)) → (∀ i, e ≠ .request (.leave i)) →
      (∀ i nickname, e ≠ .request (.register i nickname)) → (h.step e).names = h.names := by
    intro hj hl hr
    apply names_of_same ((ledger_step he).admitted_eq hj hl)
    exact fun i ha => nameOf_step he (hg.known i ha) (hr i)
  cases e with
  | request request =>
    have hall : h.queued request o = h.news request o := of_decide_eq_true keeps
    rw [learns, hall]
    cases request with
    | join id => exact names_join hg going (fresh id rfl).1 (fresh id rfl).2 ho he
    | leave id => exact names_leave hg going ho hstays
    | register id nickname => exact names_register hg hi ho
    | _ =>
      have hnone := changes_eq_nil (h := h) (o := o) (genuine _ rfl) (fun _ heq => nomatch heq)
        (fun _ heq => nomatch heq) fun _ _ heq => nomatch heq
      rw [changes] at hnone
      rw [hnone]
      exact hquiet (fun _ heq => nomatch heq) (fun _ heq => nomatch heq)
        fun _ _ heq => nomatch heq
  | create | act | expire | tick =>
    exact hquiet (fun _ heq => nomatch heq) (fun _ heq => nomatch heq) fun _ _ heq => nomatch heq

theorem names_run {limits : Limits} {es : List Event} (hr : h.Reachable limits)
    (hf : h.feasible es) (going : h.barrier = none) (first : .request .shutDown ∉ es)
    (genuine : ∀ request, .request request ∈ es → request.raw = false)
    (fresh : ∀ p i, p ++ [.request (.join i)] <+: es →
      i ∉ (h.run p).admitted ∧ ((h.run p).ledger.profile i).nickname = none)
    (attentive : h.attends o es) :
    ∀ p, p <+: es → (h.run p).names = Change.replay h.names (h.changeLog o p) := by
  refine prefix_induction hf rfl ?_
  intro p e hp he ih
  have hfeasible := feasible_before hf ((List.prefix_append p [e]).trans hp)
  have hreach := hr.run hfeasible
  have hmem : ∀ {d}, d ∈ p ++ [e] → d ∈ es := fun hd => hp.subset hd
  have hlast : e ∈ es := hmem (List.mem_append_right p (List.mem_singleton_self e))
  have hgoing : (h.run p).barrier = none :=
    going_run hfeasible going fun hd => first (hmem (List.mem_append_left [e] hd))
  have hstopped : (h.run p).stopped = false := by
    rw [stopped, hgoing]
    rfl
  obtain ⟨rest, hrest⟩ := hp
  rw [← hrest, List.append_assoc] at attentive
  have hnow := attends_after attentive
  rw [List.singleton_append, attends, Bool.and_eq_true, Bool.and_eq_true] at hnow
  obtain ⟨⟨ho, keeps⟩, hlater⟩ := hnow
  have hstep := names_step hreach.grounded hreach.indexed hstopped he
    (fun request heq => genuine request (heq ▸ hlast))
    (fun i heq => fresh p i (heq ▸ ⟨rest, hrest⟩)) (List.contains_iff_mem.1 ho)
    (mem_of_attends hlater) keeps
  rw [run_concat, changeLog_concat, Change.replay_append, ← ih]
  exact hstep

def shown (entries : List UserEntry) : Multiset String := (entries.map (·.name) : List String)

/-- A session that reads its queue, and remembers its own renames, is right about who is there all
along, if it starts with who was there first. -/
structure Followed (h : Hub) (o : SessionId) (es : List Event) : Prop where
  names : ∀ p, p <+: es → ∀ viewer,
    shown ((h.run p).users viewer) = Change.replay (shown (h.users viewer)) (h.changeLog o p)
  told : ∀ p request, p ++ [.request request] <+: es →
    ∀ s t, (h.run p).pool.get? o = some s → (h.run (p ++ [.request request])).pool.get? o = some t →
      t.outbox.items = s.outbox.items ++ ((h.run p).queued request o).map fun m => .text m.text

variable {limits : Limits} {archive : Option Archive} {stamp : String} {before after : List Event}

/-- What a session learns from its admission on is a log of who is there, unless it misses
something. -/
theorem names_followed
    (hf : (start limits archive stamp).feasible (before ++ [.request (.join o)] ++ after))
    (once : (joined (before ++ [.request (.join o)] ++ after)).Nodup)
    (going : .request .shutDown ∉ before ++ [.request (.join o)] ++ after)
    (genuine : ∀ request, .request request ∈ after → request.raw = false)
    (attentive :
      ((start limits archive stamp).run (before ++ [.request (.join o)])).attends o after) :
    Followed ((start limits archive stamp).run (before ++ [.request (.join o)])) o after := by
  have hfirst := hf
  rw [feasible_append, Bool.and_eq_true] at hfirst
  have hreach := reachable_run hfirst.1
  have hfresh : ∀ p i, p ++ [.request (.join i)] <+: after →
      i ∉ (((start limits archive stamp).run (before ++ [.request (.join o)])).run p).admitted ∧
        ((((start limits archive stamp).run (before ++ [.request (.join o)])).run p).ledger.profile
          i).nickname = none := by
    intro p i hp
    have hwhole := (List.prefix_append_right_inj (before ++ [.request (.join o)])).2 hp
    rw [← List.append_assoc] at hwhole
    have hfeasible := feasible_before hf ((List.prefix_append _ [.request (.join i)]).trans hwhole)
    rw [← run_append]
    exact fresh_run hfeasible i (not_joined_before once hwhole)
  rw [List.mem_append, not_or] at going
  have hgoing := going_run hfirst.1 rfl going.1
  have hnames := names_run hreach hfirst.2 hgoing going.2 genuine hfresh attentive
  refine ⟨fun p hp viewer => ?_, fun p request _ s t hs ht => ?_⟩
  · have hlast := hreach.run (feasible_before hfirst.2 hp)
    unfold shown
    rw [names_users hlast.grounded viewer, names_users hreach.grounded viewer]
    exact hnames p hp
  · rw [run_concat] at ht
    exact items_handle hs ht

def arrivals : List Event :=
  [.create "a" .line 32, .create "b" .line 32, .create "c" .line 32, .request (.join 1),
    .request (.register 1 "x")]

def comings : List Event :=
  [.request (.register 0 "o"), .act 1 .stop, .request (.join 2), .request (.register 2 "x"),
    .request (.register 0 "o"), .request (.chat 2 "hello"), .request (.leave 1),
    .request (.leave 1), .request (.register 0 "x")]

theorem names_followed_comings :
    (start .standard none "").feasible (arrivals ++ [.request (.join 0)] ++ comings) ∧
      (joined (arrivals ++ [.request (.join 0)] ++ comings)).Nodup ∧
      .request .shutDown ∉ arrivals ++ [.request (.join 0)] ++ comings ∧
      (∀ request, .request request ∈ comings → request.raw = false) ∧
      ((start .standard none "").run (arrivals ++ [.request (.join 0)])).attends 0 comings ∧
      ((start .standard none "").run (arrivals ++ [.request (.join 0)])).changeLog 0 comings =
        [.renamed "a" "o", .arrived "c", .renamed "c" "x", .renamed "o" "o", .departed "x"] ∧
      Followed ((start .standard none "").run (arrivals ++ [.request (.join 0)])) 0 comings := by
  have genuine : ∀ request, .request request ∈ comings → request.raw = false := by
    have hall : comings.all (fun e => match e with
      | .request request => !request.raw
      | _ => true) := by decide
    intro request hmem
    have hone := List.all_eq_true.1 hall _ hmem
    exact (Bool.not_eq_true' _).mp hone
  exact ⟨by decide +kernel, by decide, by decide, genuine, by decide +kernel, by decide +kernel,
    names_followed (by decide +kernel) (by decide) (by decide) genuine (by decide +kernel)⟩

end Hub
end ChatRelay

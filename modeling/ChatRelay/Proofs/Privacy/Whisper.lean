import ChatRelay.Proofs.Nicknames
import ChatRelay.Proofs.Privacy.Alike

/-! Private messages. Whether one is sent, and all that anybody but its receiver can find out later,
is no matter of what it says; and that stays so when logs fail now and then, as long as they do not
fail because of what is written. -/

namespace ChatRelay

structure Moment where
  event : Hub.Event
  mishap : Option Fault

namespace Hub

def meet (h : Hub) (m : Moment) : Hub :=
  match m.mishap with
  | none => h.step m.event
  | some _ => { h.step m.event with archive := h.archive }

def undergo (h : Hub) : List Moment → Hub
  | [] => h
  | m :: ms => (h.meet m).undergo ms

def endures (h : Hub) : List Moment → Bool
  | [] => true
  | m :: ms => h.allows m.event && (h.meet m).endures ms

def reply (h : Hub) (request : Request) (mishap : Option Fault) : Except Fault Answer :=
  match request, mishap with
  | .history id limit, some fault => (h.handle (.history id limit)).1.bind fun _ => .error fault
  | request, _ => (h.handle request).1

variable {hidden : SessionId → Bool} {secret : LogFile → Prop} {h k : Hub}

theorem ledger_meet (h : Hub) (m : Moment) : (h.meet m).ledger = (h.step m.event).ledger := by
  unfold meet
  split <;> rfl

theorem undergo_induction {P : Ledger → Prop} {ms : List Moment} (hf : h.endures ms)
    (h0 : P h.ledger) (hstep : ∀ {l e k}, Ledger.Step l e k → P l → P k) :
    P (h.undergo ms).ledger := by
  induction ms generalizing h with
  | nil => exact h0
  | cons m ms ih =>
    rw [endures, Bool.and_eq_true] at hf
    have hnext := hstep (ledger_step hf.1) h0
    rw [← ledger_meet] at hnext
    exact ih hf.2 hnext

namespace Alike

theorem meet (ha : Alike hidden secret h k) (m : Moment) :
    Alike hidden secret (h.meet m) (k.meet m) := by
  have hs := ha.step m.event
  unfold Hub.meet
  cases m.mishap with
  | none => exact hs
  | some fault => exact ⟨hs.ledger, hs.stamp, hs.pool, ha.archive⟩

theorem undergo (ha : Alike hidden secret h k) (ms : List Moment) :
    Alike hidden secret (h.undergo ms) (k.undergo ms) := by
  induction ms generalizing h k with
  | nil => exact ha
  | cons m ms ih => exact ih (ha.meet m)

theorem reply_eq (ha : Alike hidden secret h k) (readable : ∀ scope, ¬ secret (.ofScope scope))
    (request : Request) (mishap : Option Fault) :
    h.reply request mishap = k.reply request mishap := by
  unfold reply
  split
  · rw [ha.answer_eq readable]
  · exact ha.answer_eq readable request

end Alike

/-! ### What one message changes -/

theorem alike_tell (p : Pool) (receiver : SessionId) (m m' : Message) :
    (p.update receiver (·.tell m)).Alike (· == receiver) (p.update receiver (·.tell m')) := by
  intro i
  dsimp only
  rw [Pool.get?_update, Pool.get?_update]
  by_cases hi : i = receiver
  · have hhidden : (i == receiver) = true := beq_iff_eq.2 hi
    have hmuted : ∀ s : Session, (s.tell m).muted = (s.tell m').muted := fun s =>
      Session.muted_offer_congr rfl m.text m'.text
    rw [if_pos hi, if_pos hi, hhidden]
    cases p.get? i with
    | none => rfl
    | some s => exact congrArg some (hmuted s)
  · rw [if_neg hi, if_neg hi]

theorem sameLogs_append (a : Archive) (file : LogFile) (line line' : String) :
    SameLogs (· = file) (a.append file line) (a.append file line') := by
  intro f hf
  rw [Archive.get?_append, Archive.get?_append, if_neg fun h => hf h.1, if_neg fun h => hf h.1]

section Sent

variable {id receiver : SessionId} {target : String} {s : Session}

theorem step_whisper (hq : h.requester id = .ok s) (hheld : h.holder? target = some receiver)
    (body : String) : h.step (.request (.whisper id target body)) =
      (h.update receiver (·.tell (.privateFrom s.displayName body))).log
        (.pair s.displayName target) s.displayName body := by
  rw [step, handle, whisper_eq hq hheld, attempt]

theorem pool_meet_whisper (hq : h.requester id = .ok s)
    (hheld : h.holder? target = some receiver) (body : String) (mishap : Option Fault) :
    (h.meet ⟨.request (.whisper id target body), mishap⟩).pool =
      h.pool.update receiver (·.tell (.privateFrom s.displayName body)) := by
  have hstep := congrArg Hub.pool (step_whisper hq hheld body)
  cases mishap with
  | none => exact hstep
  | some fault => exact hstep

theorem alike_whisper (hq : h.requester id = .ok s) (hheld : h.holder? target = some receiver)
    (body body' : String) (mishap : Option Fault) :
    Alike (· == receiver) (· = .pair s.displayName target)
      (h.meet ⟨.request (.whisper id target body), mishap⟩)
      (h.meet ⟨.request (.whisper id target body'), mishap⟩) := by
  have hledger : ∀ body, (h.meet ⟨.request (.whisper id target body), mishap⟩).ledger =
      h.ledger := by
    intro body
    rw [ledger_meet, step, ledger_handle, Ledger.handle]
  have hstamp : ∀ body, (h.meet ⟨.request (.whisper id target body), mishap⟩).stamp =
      h.stamp := by
    intro body
    have hstep := congrArg Hub.stamp (step_whisper hq hheld body)
    cases mishap with
    | none => exact hstep
    | some fault => exact hstep
  refine ⟨(hledger body).trans (hledger body').symm, (hstamp body).trans (hstamp body').symm,
    ?_, ?_⟩
  · rw [pool_meet_whisper hq hheld, pool_meet_whisper hq hheld]
    exact alike_tell h.pool receiver _ _
  · cases mishap with
    | some fault => exact (alike_refl (· == receiver) _ h).archive
    | none =>
      have hstep := fun body => congrArg Hub.archive (step_whisper hq hheld body)
      unfold meet
      dsimp only
      rw [hstep, hstep, log, log]
      dsimp only [update]
      cases h.archive with
      | none => exact .none
      | some a => exact .some (sameLogs_append a _ _ _)

end Sent

/-- What everybody but one session knows of two hubs, and can ask them, is the same. -/
structure Unaware (receiver : SessionId) (h k : Hub) : Prop where
  others : ∀ i, i ≠ receiver → h.pool.get? i = k.pool.get? i
  ledger : h.ledger = k.ledger
  replies : ∀ request mishap, h.reply request mishap = k.reply request mishap

theorem unaware_of_alike {receiver : SessionId} {a b : String}
    (ha : Alike (· == receiver) (· = .pair a b) h k) : Unaware receiver h k where
  others i hne := by
    have hi := ha.pool i
    have hshown : (i == receiver) = false := beq_eq_false_iff_ne.2 hne
    have hall : Session.veiled false = id := rfl
    rw [hshown, hall, Option.map_id_fun, id, id] at hi
    exact hi
  ledger := ha.ledger
  replies := ha.reply_eq fun scope => LogFile.ofScope_ne_pair scope a b

/-- What a private message says is between its sender and its receiver. -/
structure Discreet (h : Hub) (id : SessionId) (target body body' : String)
    (mishap : Option Fault) : Prop where
  answer : (h.handle (.whisper id target body)).1 = (h.handle (.whisper id target body')).1
  refused : ∀ fault, (h.handle (.whisper id target body)).1 = .error fault →
    h.meet ⟨.request (.whisper id target body), mishap⟩ = h ∧
      h.meet ⟨.request (.whisper id target body'), mishap⟩ = h
  /-- A message that is sent goes to one session that bears the nickname, and whatever happens then,
  nobody else learns what it says. -/
  sent : ∀ answer, (h.handle (.whisper id target body)).1 = .ok answer →
    ∃ receiver s, h.session receiver = .ok s ∧ s.stopped = false ∧
      s.profile.nickname = some target ∧
      (h.meet ⟨.request (.whisper id target body), mishap⟩).pool.get? receiver =
        some (s.tell (.privateFrom (h.nameOf id) body)) ∧
      (∀ i, i ≠ receiver →
        (h.meet ⟨.request (.whisper id target body), mishap⟩).pool.get? i = h.pool.get? i) ∧
      ∀ after, Unaware receiver
        ((h.meet ⟨.request (.whisper id target body), mishap⟩).undergo after)
        ((h.meet ⟨.request (.whisper id target body'), mishap⟩).undergo after)

theorem whisper_cases (h : Hub) (id : SessionId) (target : String) :
    (∃ fault, ∀ body, h.whisper id target body = .error fault) ∨
      ∃ s receiver, h.requester id = .ok s ∧ h.holder? target = some receiver := by
  unfold whisper
  cases hq : h.requester id with
  | error fault => exact .inl ⟨fault, fun _ => rfl⟩
  | ok s =>
    cases hheld : h.holder? target with
    | none => exact .inl ⟨_, fun _ => rfl⟩
    | some receiver => exact .inr ⟨s, receiver, rfl, rfl⟩

theorem discreet_of (hg : h.ledger.Grounded) (hi : h.ledger.Indexed) (id : SessionId)
    (target body body' : String) (mishap : Option Fault) :
    Discreet h id target body body' mishap := by
  rcases h.whisper_cases id target with ⟨fault, hw⟩ | ⟨s, receiver, hq, hheld⟩
  · have hunsent : ∀ body, h.handle (.whisper id target body) = (.error fault, h) := by
      intro body
      rw [handle, hw]
      rfl
    have hsame : ∀ body, h.meet ⟨.request (.whisper id target body), mishap⟩ = h := by
      intro body
      unfold meet
      rw [step, hunsent]
      cases mishap <;> rfl
    refine ⟨?_, fun _ _ => ⟨hsame body, hsame body'⟩, fun answer ha => ?_⟩
    · rw [hunsent, hunsent]
    · rw [hunsent] at ha
      cases ha
  · have hsent : ∀ body, (h.handle (.whisper id target body)).1 = .ok .done := by
      intro body
      rw [handle, whisper_eq hq hheld]
      rfl
    have hpool := pool_meet_whisper hq hheld body mishap
    refine ⟨(hsent body).trans (hsent body').symm, fun fault hf => ?_, fun answer _ => ?_⟩
    · rw [hsent] at hf
      cases hf
    -- a nickname leads only to who is admitted and bears it, and is found while that one runs
    · rw [Hub.holder?_eq] at hheld
      obtain ⟨hget, hlive⟩ := Ledger.holder?_eq_some_iff.1 hheld
      obtain ⟨hin, hnick⟩ := hi hget
      obtain ⟨t, ht⟩ := exists_session_of_mem hg hin
      rw [profile_of_session ht] at hnick
      have hrun := (hg.live_iff hin).1 hlive
      rw [running_of_session ht, Bool.not_eq_true'] at hrun
      rw [← Hub.holder?_eq] at hheld
      refine ⟨receiver, t, ht, hrun, hnick, ?_, fun i hne => ?_, fun after => ?_⟩
      · rw [hpool, Pool.get?_update, if_pos rfl, (session_eq_ok_iff.1 ht).2,
          nameOf_of_get? (get?_of_requester hq)]
        rfl
      · rw [hpool, Pool.get?_update, if_neg hne]
      · exact unaware_of_alike ((alike_whisper hq hheld body body' mishap).undergo after)

variable {limits : Limits} {archive : Option Archive} {stamp : String} {before : List Moment}

/-- Private messages stay private, whatever happened before and whatever happens later. -/
theorem whisper_discreet (hf : (start limits archive stamp).endures before) (id : SessionId)
    (target body body' : String) (mishap : Option Fault) :
    Discreet ((start limits archive stamp).undergo before) id target body body' mishap := by
  have hboth := undergo_induction (P := fun l => l.Grounded ∧ l.Indexed) hf
    ⟨Ledger.grounded_start .., fun _ _ h => nomatch h⟩ fun hs h => ⟨h.1.step hs, h.2.step hs h.1⟩
  exact discreet_of hboth.1 hboth.2 id target body body' mishap

def acquaintance : List Moment :=
  [⟨.create "a" .line 16, none⟩, ⟨.create "b" .line 16, none⟩, ⟨.request (.join 0), none⟩,
    ⟨.request (.join 1), none⟩, ⟨.request (.register 0 "x"), none⟩,
    ⟨.request (.register 1 "y"), none⟩, ⟨.request (.chat 0 "hello"), some .historyUnavailable⟩]

theorem whisper_discreet_acquaintance :
    (start .standard (some .empty) "").endures acquaintance ∧
      (((start .standard (some .empty) "").undergo acquaintance).handle
        (.whisper 0 "y" "yes")).1 = .ok .done ∧
      Discreet ((start .standard (some .empty) "").undergo acquaintance) 0 "y" "yes" "no" none :=
  ⟨by decide +kernel, by decide +kernel, whisper_discreet (by decide +kernel) 0 "y" "yes" "no" none⟩

end Hub
end ChatRelay

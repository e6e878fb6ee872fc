import ChatRelay.Proofs.Link.Step
import ChatRelay.Proofs.OneLine.Reply

/-! What comes of a unit of text. All that is said and logged for it is one line each, unless the
unit itself is a chat text, or a private message to what can be a nickname, that goes over a line
feed. No line is such a unit, but a message can be. -/

namespace ChatRelay

def Errand.Of (limits : Limits) (text : String) (errand : Errand) : Prop :=
  ∃ (h : Hub) (l l' : Link) (s s' : Session) (now : Nat), h.Plain limits ∧
    h.pool.get? l.session = some s ∧
    l.step s now (.input (.unit (.text text))) = some (l', s') ∧ l'.reader = .posting errand

def Hub.LogsLines (h k : Hub) : Prop :=
  k.archive = h.archive ∨ ∃ a file line, h.archive = some a ∧
    k.archive = some (a.append file line) ∧ OneLine line ∧
    (a.Ruled file → ∀ {limit lines}, a.tail file limit = .ok lines →
      (a.append file line).tail file (limit + 1) = .ok (lines ++ [line]))

/-- Whatever comes of a text is one line, for whoever gets to hear it and in the log. -/
structure Plainspoken (limits : Limits) (text : String) : Prop where
  atOnce : ∀ {h : Hub} {l l' : Link} {s s' : Session} {now : Nat}, h.Plain limits →
    h.pool.get? l.session = some s →
    l.step s now (.input (.unit (.text text))) = some (l', s') → s.Gains OneLine s'
  told : ∀ {errand : Errand} {k : Hub}, errand.Of limits text → k.Plain limits →
    k.pool.Told OneLine (k.handle errand.request).2.pool
  logged : ∀ {errand : Errand} {k : Hub}, errand.Of limits text → k.Plain limits →
    k.LogsLines (k.handle errand.request).2
  answered : ∀ {errand : Errand} {k : Hub} {l l' : Link} {s s' : Session} {now : Nat},
    errand.Of limits text → k.Plain limits → l.reader = .waiting errand →
    l.step s now (.answered (k.handle errand.request).1) = some (l', s') → s.Gains OneLine s'
  parting : ∀ {k : Hub} {id : SessionId}, k.Plain limits →
    k.pool.Told OneLine (k.handle (.leave id)).2.pool

variable {limits : Limits} {text : String} {h k : Hub} {errand : Errand}

theorem Errand.Of.planned (he : errand.Of limits text) :
    errand.command = Command.parse text ∧ (∀ {name}, errand.room = some name → OneLine name) ∧
      ∃ id, errand.command.plan id errand.room = .submit errand.request := by
  obtain ⟨h, l, l', s, s', now, hp, hs, hstep, hposting⟩ := he
  cases Link.step_of_eq_some hstep with
  | reply reading => cases reading.symm.trans hposting
  | post reading running planned =>
    cases hposting
    exact ⟨rfl, (hp.voiced hs).room, _, planned⟩
  | quit => cases hposting
  | discard flushing => cases flushing.symm.trans hposting
  | hangUp ends => cases ends

theorem Hub.Plain.logsLines (hk : k.Plain limits) {request : Request}
    (hc : request.Clean OneLine k)
    (hsaid : ∀ {body}, request.said? = some body → body.toList.getLast? ≠ some '\r') :
    k.LogsLines (k.handle request).2 := by
  obtain ⟨l, hl, htold⟩ := told_handle hk.voiced (fun h => oneLine_of_flaw? h) hc
  rcases hl with rfl | ⟨file, sender, body, hbody, hsender, hone, rfl⟩
  · exact .inl htold.archive
  · cases ha : k.archive with
    | none =>
      refine .inl ?_
      rw [htold.archive, log, ha]
      rfl
    | some a =>
      have hline : OneLine (Archive.line k.stamp sender body) := by
        simp only [Archive.line, oneLine_append]
        exact ⟨⟨⟨⟨hk.addressed.stamp, oneLine_ofList (by decide)⟩, hsender⟩,
          oneLine_ofList (by decide)⟩, hone⟩
      have hlast : (Archive.line k.stamp sender body).toList.getLast? ≠ some '\r' :=
        Archive.getLast?_line (hsaid hbody)
      refine .inr ⟨a, file, _, ha, ?_, hline, fun hr _ _ ht => ?_⟩
      · rw [htold.archive, log, ha]
        rfl
      · exact Archive.tail_append hr hline hlast ht

theorem Hub.Plain.told (hk : k.Plain limits) {request : Request}
    (hc : request.Clean OneLine k) : k.pool.Told OneLine (k.handle request).2.pool := by
  obtain ⟨l, hl, htold⟩ := told_handle hk.voiced (fun h => oneLine_of_flaw? h) hc
  exact hl.pool_eq ▸ htold.pool.mono fun _ => Made.oneLine

theorem plainspoken_of (hb : ¬ (Command.parse text).Breaks limits) : Plainspoken limits text := by
  have hc := Command.tidy_parse text
  refine ⟨fun hp hs hstep => ?_, fun he hk => ?_, fun he hk => ?_, fun he hk waiting hstep => ?_,
    fun hk => hk.told trivial⟩
  · cases Link.step_of_eq_some hstep with
    | reply reading running planned =>
      exact Session.gains_tellAll (Command.oneLine_of_reply hc (hp.voiced hs).room planned) _
    | post | discard => exact Session.gains_of_same rfl rfl
    | quit =>
      have hbye : OneLine Message.goodbye.text := oneLine_ofList (by decide)
      exact (Session.gains_offer hbye _).trans (Session.gains_closeAfterFlush _)
    | hangUp ends => cases ends
  · obtain ⟨hparse, hroom, id, hplan⟩ := he.planned
    exact hk.told (Command.clean_of_plan hk (hparse ▸ hb) hplan)
  · obtain ⟨hparse, hroom, id, hplan⟩ := he.planned
    refine hk.logsLines (Command.clean_of_plan hk (hparse ▸ hb) hplan) fun hsaid => ?_
    rw [Command.said?_of_plan hplan, hparse] at hsaid
    exact hc.said hsaid
  · obtain ⟨hparse, hroom, id, hplan⟩ := he.planned
    cases Link.step_of_eq_some hstep with
    | answer waiting' running =>
      cases waiting.symm.trans waiting'
      exact Session.gains_tellAll
        (Command.oneLine_replies hk hroom (hparse ▸ hc) (hparse ▸ hb) hplan) _

/-! ### Texts over several lines -/

theorem Pool.fine_of_told {fine : String → Prop} {p q : Pool} {i : SessionId} {s : Session}
    (hs : p.get? i = some s) (hq : q.get? i = some (s.withText text)) (h : p.Told fine q) :
    fine text := by
  obtain ⟨s', hs', hgains⟩ := h i _ hq
  cases hs.symm.trans hs'
  obtain ⟨added, hadded, hfine⟩ := hgains.queued
  refine hfine text ?_
  rw [← List.append_cancel_left hadded]
  exact List.mem_singleton_self _

theorem Errand.of_plan (hp : h.Plain limits) {id : SessionId} {s : Session}
    (hs : h.pool.get? id = some s) (running : s.stopped = false) {request : Request}
    (planned : (Command.parse text).plan id s.profile.room = .submit request) :
    Errand.Of limits text ⟨.parse text, s.profile.room, request⟩ := by
  refine ⟨h, .start id, { Link.start id with reader := .posting ⟨_, _, request⟩ }, s, s, 0, hp, hs,
    ?_, rfl⟩
  simp only [Link.step, Link.start, running, Link.read, Link.dispatch, planned,
    Bool.false_eq_true, if_false]

namespace Hub

def pairing : List Event :=
  [.create "a" .line 8, .create "b" .line 8, .request (.join 0), .request (.join 1)]

def paired (limits : Limits) : Hub := (start limits none "").run pairing

theorem plain_paired (limits : Limits) : (paired limits).Plain limits := by
  refine ⟨none, "", pairing, oneLine_ofList (by decide), fun e he => ?_, rfl, rfl⟩
  simp only [pairing, List.mem_cons, List.not_mem_nil, or_false] at he
  rcases he with rfl | rfl | rfl | rfl
  · exact (oneLine_ofList (by decide) : OneLine "a")
  · exact (oneLine_ofList (by decide) : OneLine "b")
  · trivial
  · trivial

theorem requester_paired (limits : Limits) :
    ∃ s, (paired limits).requester 0 = .ok s ∧ s.stopped = false ∧ s.profile.room = none :=
  ⟨_, rfl, rfl, rfl⟩

theorem accepts_paired (limits : Limits) :
    ∃ s, (paired limits).pool.get? 1 = some s ∧ s.Accepts ∧ s.live := by
  have hsome : ((paired .standard).pool.get? 1).any (fun s => s.Accepts ∧ s.live) := by
    decide +kernel
  have hsame : (paired limits).pool = (paired .standard).pool := rfl
  obtain ⟨s, hs, hd⟩ := (Option.any_eq_true _ _).1 hsome
  rw [hsame]
  exact ⟨s, hs, of_decide_eq_true hd⟩

theorem get?_rename_self {id : SessionId} {s : Session} (hs : h.pool.get? id = some s)
    (nickname : String) : (h.rename id s nickname).pool.get? id =
      some ((s.setNickname (some nickname)).setAuthenticated true) := by
  unfold rename announce update
  rw [Pool.get?_fanOut, Pool.get?_update, if_pos rfl, hs]
  simp

theorem holder?_rename_self {id : SessionId} {s : Session} (hs : h.pool.get? id = some s)
    (hlive : s.live) (nickname : String) :
    (h.rename id s nickname).holder? nickname = some id := by
  have hnick : (h.rename id s nickname).nicknames.get? nickname = some id := by
    unfold rename announce update
    rw [Registry.get?_insert, if_pos rfl]
  have hfound := Pool.live?_eq_some_iff.2 ⟨get?_rename_self hs nickname, hlive⟩
  rw [holder?, hnick, Option.filter_some, hfound]
  rfl

theorem register_paired {s : Session} (hs : (paired limits).pool.get? 1 = some s)
    {nickname : String} (hn : Name.flaw? .nickname limits.nameLength nickname = none) :
    (paired limits).register 1 nickname = .ok ((paired limits).rename 1 s nickname) := by
  have hq : (paired limits).requester 1 = .ok s :=
    requester_eq_ok_iff.2 ⟨rfl, session_eq_ok_iff.2 ⟨List.mem_cons_of_mem 0 List.mem_cons_self, hs⟩⟩
  have hc : Name.check .nickname (paired limits).limits.nameLength nickname = .ok () :=
    Name.check_eq_ok_iff.2 hn
  have hfree : (paired limits).holder? nickname = none := rfl
  rw [register, hq, hc, hfree]
  rfl

end Hub

theorem not_plainspoken_chat {body : String} (hparse : Command.parse text = .chat body)
    (hbody : ¬ OneLine body) : ¬ Plainspoken limits text := by
  intro hspoken
  obtain ⟨s, hq, running, hroom⟩ := Hub.requester_paired limits
  obtain ⟨t, ht, haccepts, -⟩ := Hub.accepts_paired limits
  have hk := Hub.plain_paired limits
  have hmeant : 1 ∈ (Hub.paired limits).admitted ∧ 1 ≠ 0 :=
    ⟨List.mem_cons_of_mem 0 List.mem_cons_self, Nat.one_ne_zero⟩
  generalize Hub.paired limits = k at *
  have he : Errand.Of limits text ⟨.parse text, s.profile.room, .chat 0 body⟩ :=
    Errand.of_plan hk (Hub.get?_of_requester hq) running (by rw [hparse]; rfl)
  have hheard := Hub.heard_announce (k.log .openChat s.displayName body)
    (.chat s.displayName body) 0 1
  have htold : k.pool.Told OneLine (k.chat 0 body).pool := hspoken.told he hk
  rw [Hub.chat_open hq hroom] at htold
  rw [show (k.log .openChat s.displayName body).pool = k.pool from rfl, ht, Option.map_some,
    if_pos ⟨hmeant, haccepts⟩] at hheard
  have hone : OneLine ("[" ++ s.displayName ++ "]: " ++ body) :=
    Pool.fine_of_told ht hheard htold
  exact hbody (oneLine_append.1 hone).2

theorem not_plainspoken_pm {target body : String} (hparse : Command.parse text = .pm target body)
    (hflaw : Name.flaw? .nickname limits.nameLength target = none) (hbody : ¬ OneLine body) :
    ¬ Plainspoken limits text := by
  intro hspoken
  obtain ⟨s, hq, running, -⟩ := Hub.requester_paired limits
  obtain ⟨t, ht, haccepts, hlive⟩ := Hub.accepts_paired limits
  have he : Errand.Of limits text ⟨.parse text, s.profile.room, .whisper 0 target body⟩ :=
    Errand.of_plan (Hub.plain_paired limits) (Hub.get?_of_requester hq) running
      (by rw [hparse]; rfl)
  have hk : (((Hub.paired limits).handle (.register 1 target)).2).Plain limits :=
    (Hub.plain_paired limits).step (e := .request (.register 1 target)) trivial rfl
  rw [Hub.handle, Hub.register_paired ht hflaw, Hub.attempt] at hk
  dsimp only at hk
  have hgoing : ((Hub.paired limits).rename 1 t target).stopped = false := rfl
  have hsession : ∃ s', ((Hub.paired limits).rename 1 t target).session 0 = .ok s' := ⟨_, rfl⟩
  have hget := Hub.get?_rename_self ht target
  have hheld := Hub.holder?_rename_self ht hlive target
  generalize (Hub.paired limits).rename 1 t target = k at *
  obtain ⟨s', hs'⟩ := hsession
  have hw := Hub.whisper_eq (Hub.requester_eq_ok_iff.2 ⟨hgoing, hs'⟩) hheld body
  have hheard := Hub.heard_tell k (.privateFrom s'.displayName body) 1 1
  have haccepts' : ((t.setNickname (some target)).setAuthenticated true).Accepts := haccepts
  rw [hget, Option.map_some, if_pos ⟨rfl, haccepts'⟩] at hheard
  have htold := hspoken.told he hk
  dsimp only at htold
  rw [Hub.handle, hw] at htold
  have hone : OneLine ("[PM from " ++ s'.displayName ++ "]: " ++ body) :=
    Pool.fine_of_told hget hheard htold
  exact hbody (oneLine_append.1 hone).2

/-- Everything that comes of a unit is one line exactly if the unit is no chat text and no private
message to a possible nickname that goes over a line feed; what is read off a line connection is
never such a unit; and one line is what a line connection shows of a text without line feeds. -/
theorem plainspoken_iff (limits : Limits) :
    (∀ text, Plainspoken limits text ↔ ¬ (Command.parse text).Breaks limits) ∧
      (∀ limit chunks text, .ok text ∈ (Line.Decoder.start limit).readAll chunks →
        Plainspoken limits text) ∧
      ∀ texts : List String, (∀ t ∈ texts, OneLine t) →
        (texts.flatMap Line.encode).splitOn Line.feed = texts.map Text.toBytes ++ [[]] := by
  refine ⟨fun text => ⟨fun hspoken hb => ?_, plainspoken_of⟩, fun limit chunks text ht => ?_,
    fun texts h => Line.splitOn_encode h⟩
  · cases hparse : Command.parse text with
    | chat body => exact not_plainspoken_chat hparse (hparse ▸ hb :) hspoken
    | pm target body =>
      rw [hparse] at hb
      exact not_plainspoken_pm hparse hb.1 hb.2 hspoken
    | _ =>
      rw [hparse] at hb
      exact hb
  · have hone := Line.Decoder.oneLine_of_mem_readAll List.not_mem_nil ht
    exact plainspoken_of (Command.not_breaks_parse hone)

theorem not_plainspoken_forged :
    ∃ text, Inbound.ofFrame (.text "hi\n[10.0.0.1:9]: bye") = .text text ∧
      ¬ Plainspoken .standard text := by
  refine ⟨"hi\n[10.0.0.1:9]: bye", by decide +kernel, fun h => ?_⟩
  have hparse : Command.parse "hi\n[10.0.0.1:9]: bye" = .chat "hi\n[10.0.0.1:9]: bye" := by
    decide +kernel
  have hb := ((plainspoken_iff .standard).1 _).1 h
  rw [hparse] at hb
  exact hb fun hone => hone (by decide)

end ChatRelay

import ChatRelay.Proofs.Language.Parse
import ChatRelay.Proofs.Link.Step
import ChatRelay.Proofs.Order.Parcels
import ChatRelay.Proofs.Recall.Lines

/-! How much of a reply gets into the queue of whoever asked. A reply is queued in one go, and what
there is no room for is lost. A queue of the usual size has room for every reply but two: a list of
as many users as the queue has slots, or more, and as many lines of a log as can be asked for. The
line above them says how many they are, and takes up the slot of the last. -/

namespace ChatRelay

theorem Archive.length_of_tail {a : Archive} {file : LogFile} {limit : Nat} {lines : List String}
    (ht : a.tail file limit = .ok lines) : lines.length ≤ limit := by
  unfold Archive.tail at ht
  split at ht
  · cases ht
  · split at ht
    · cases ht
      exact Nat.zero_le _
    · cases ht
      rw [Text.length_lastN]
      exact Nat.min_le_left ..
    · cases ht
    · cases ht

namespace Command

variable {h : Hub} {id : SessionId} {room : Option String} {command : Command}

def told (h : Hub) (id : SessionId) (room : Option String) (command : Command) : List Message :=
  match command.plan id room with
  | .reply messages => messages
  | .submit request => command.replies room (h.handle request).1
  | .quit => [.goodbye]

def Overflows (h : Hub) (id : SessionId) : Command → Prop
  | users => Limits.standard.outboundQueue ≤ (h.users id).length
  | history limit => limit = maxHistory ∧
      ∃ scope lines, h.history id limit = .ok (scope, lines) ∧ lines.length = maxHistory
  | _ => False

theorem told_users (h : Hub) (id : SessionId) (room : Option String) :
    users.told h id room = .userListHeader (h.users id).length ::
      (h.users id).map fun e => .userEntry e.name e.isSelf := rfl

theorem told_history_eq (h : Hub) (id : SessionId) (room : Option String) (limit : Nat) :
    (history limit).told h id room = (history limit).replies room
      ((h.history id limit).map fun (scope, lines) => .history scope lines) := rfl

theorem told_history {limit : Nat} {scope : Option String} {lines : List String}
    (hh : h.history id limit = .ok (scope, lines)) :
    (history limit).told h id room =
      .historyHeader (Message.scopeText scope) lines.length :: lines.map .historyLine := by
  rw [told_history_eq, hh]
  rfl

theorem told_history_of_error {limit : Nat} {fault : Fault}
    (hh : h.history id limit = .error fault) :
    (history limit).told h id room = [.ofFault fault] := by
  rw [told_history_eq, hh]
  rfl

theorem length_le_of_planned {messages : List Message}
    (hp : command.plan id room = .reply messages) : messages.length ≤ Message.help.length := by
  have hone : 1 ≤ Message.help.length := by decide
  cases command with
  | join name =>
    by_cases hr : room = some name
    · rw [plan, if_pos hr] at hp
      cases hp
      exact hone
    · rw [plan, if_neg hr] at hp
      cases hp
  | leave =>
    cases room with
    | none =>
      cases hp
      exact hone
    | some name => cases hp
  | help =>
    cases hp
    exact Nat.le_refl _
  | usage | unknown =>
    cases hp
    exact hone
  | empty =>
    cases hp
    exact Nat.zero_le _
  | nick | users | quit | pm | history | chat => cases hp

theorem length_replies_le (hu : command ≠ users) (hh : ∀ limit, command ≠ history limit)
    (answer : Except Fault Answer) : (command.replies room answer).length ≤ 2 := by
  cases answer with
  | error fault => simp [replies]
  | ok answer =>
    cases command with
    | users => exact absurd rfl hu
    | history limit => exact absurd rfl (hh limit)
    | join name => cases answer <;> simp [replies]
    | nick | leave | help | quit | pm | chat | usage | unknown | empty => simp [replies]

theorem length_told_le (hu : command ≠ users) (hh : ∀ limit, command ≠ history limit) :
    (command.told h id room).length ≤ Message.help.length := by
  unfold told
  cases hp : command.plan id room with
  | reply messages => exact length_le_of_planned hp
  | submit request => exact (length_replies_le hu hh _).trans (by decide)
  | quit => exact (by decide : 1 ≤ Message.help.length)

theorem overflows_iff (hw : command.WellFormed) (room : Option String) :
    command.Overflows h id ↔ Limits.standard.outboundQueue < (command.told h id room).length := by
  have hhelp : Message.help.length = 9 := rfl
  have hqueue : Limits.standard.outboundQueue = 100 := rfl
  have hmax : maxHistory = 100 := rfl
  have hshort : command ≠ users → (∀ limit, command ≠ history limit) →
      ¬ Limits.standard.outboundQueue < (command.told h id room).length := by
    intro hu hh
    have hle : (command.told h id room).length ≤ Message.help.length := length_told_le hu hh
    omega
  cases command with
  | users =>
    rw [told_users, List.length_cons, List.length_map, Nat.lt_succ_iff]
    rfl
  | history limit =>
    obtain ⟨-, hlimit⟩ := hw
    cases hh : h.history id limit with
    | error fault =>
      rw [told_history_of_error hh]
      refine ⟨fun ho => ?_, fun hlong => absurd hlong (by decide : ¬ 100 < 1)⟩
      obtain ⟨-, scope, lines, hok, -⟩ := ho
      exact nomatch hh.symm.trans hok
    | ok answer =>
      obtain ⟨scope, lines⟩ := answer
      obtain ⟨archive, s, -, -, -, ht⟩ := Hub.history_eq_ok_iff.1 hh
      have hlength := Archive.length_of_tail ht
      rw [told_history hh, List.length_cons, List.length_map]
      constructor
      · rintro ⟨-, scope', lines', hok, hmany⟩
        cases hh.symm.trans hok
        omega
      · intro hlong
        exact ⟨by omega, scope, lines, hh, by omega⟩
  | nick | join | leave | help | quit | pm | chat | usage | unknown | empty =>
    exact ⟨False.elim, fun hlong => hshort nofun nofun hlong⟩

end Command

namespace Session

variable {s : Session} {messages : List Message}

theorem space_of_empty {capacity : Nat} (running : s.stopped = false)
    (empty : s.outbox = .create capacity) : s.space = max capacity 1 := by
  unfold space
  rw [empty, if_pos ⟨running, rfl⟩]
  rfl

theorem items_told {capacity : Nat} (running : s.stopped = false)
    (empty : s.outbox = .create capacity) : (s.tellAll messages).outbox.items =
      (messages.take (max capacity 1)).map fun m => .text m.text := by
  rw [items_tellAll, kept_eq_take, space_of_empty running empty, empty]
  rfl

theorem items_farewell (running : s.stopped = false)
    (empty : s.outbox = .create Limits.standard.outboundQueue) :
    (s.tell .goodbye).closeAfterFlush.outbox.items = [.text Message.goodbye.text, .close] := by
  obtain ⟨remoteId, transport, profile, outbox, stopped, expired⟩ := s
  cases running
  cases empty
  rfl

end Session

namespace Link

variable {h : Hub} {l : Link} {s s' : Session} {now : Nat} {text : String} {room : Option String}

/-- A driver queues what a unit of text is answered with, at once or when a hub has answered the
request that it became. -/
inductive Answers (h : Hub) (text : String) (l : Link) (s : Session) (now : Nat) :
    Option String → Session → Prop
  | atOnce {l' : Link} {s' : Session} (reading : l.reader = .reading)
      (planned : ∀ request, (Command.parse text).plan l.session s.profile.room ≠ .submit request)
      (stepped : l.step s now (.input (.unit (.text text))) = some (l', s')) :
      Answers h text l s now s.profile.room s'
  | later {room : Option String} {request : Request} {l' : Link} {s' : Session}
      (waiting : l.reader = .waiting ⟨.parse text, room, request⟩)
      (planned : (Command.parse text).plan l.session room = .submit request)
      (stepped : l.step s now (.answered (h.handle request).1) = some (l', s')) :
      Answers h text l s now room s'

structure Queued (h : Hub) (id : SessionId) (room : Option String) (command : Command)
    (items : List Outgoing) : Prop where
  items_eq : items = ((command.told h id room).take Limits.standard.outboundQueue).map
    (fun m => .text m.text) ++ if command = .quit then [.close] else []
  whole_iff : (command.told h id room).map (fun m => .text m.text) <+: items ↔
    ¬ command.Overflows h id
  /-- The line that counts the others takes the place of the newest of a hundred. -/
  history : ∀ {limit scope lines}, command = .history limit →
    h.history id limit = .ok (scope, lines) → items =
      .text (Message.historyHeader (Message.scopeText scope) lines.length).text ::
        (lines.take 99).map fun line => .text (Message.historyLine line).text
  users : command = .users → items =
    .text (Message.userListHeader (h.users id).length).text ::
      ((h.users id).take 99).map fun e => .text (Message.userEntry e.name e.isSelf).text

theorem items_counted {α : Type} (m : Message) (xs : List α) (g : α → Message) :
    ((m :: xs.map g).take Limits.standard.outboundQueue).map (fun m => Outgoing.text m.text) =
      .text m.text :: (xs.take 99).map fun x => .text (g x).text := by
  show ((_ :: _).take (99 + 1)).map _ = _
  rw [List.take_succ_cons, List.map_cons, ← List.map_take, List.map_map]
  rfl

theorem queued_of_items {command : Command} {id : SessionId} {items : List Outgoing}
    (hw : command.WellFormed)
    (hitems : items = ((command.told h id room).take Limits.standard.outboundQueue).map
      (fun m => .text m.text) ++ if command = .quit then [.close] else []) :
    Queued h id room command items := by
  have hopen : command ≠ .quit → items = ((command.told h id room).take
      Limits.standard.outboundQueue).map (fun m => .text m.text) := by
    intro hne
    rw [hitems, if_neg hne, List.append_nil]
  refine ⟨hitems, ?_, ?_, ?_⟩
  · rw [Command.overflows_iff hw room, Nat.not_lt]
    constructor
    · intro hwhole
      by_cases hq : command = .quit
      · subst hq
        exact (by decide : 1 ≤ 100)
      · rw [hopen hq] at hwhole
        have hlength := hwhole.length_le
        rw [List.length_map, List.length_map, List.length_take] at hlength
        exact hlength.trans (Nat.min_le_left ..)
    · intro hfits
      rw [hitems, List.take_of_length_le hfits]
      exact List.prefix_append ..
  · intro limit scope lines hc hh
    have hne : command ≠ .quit := hc ▸ nofun
    rw [hopen hne, hc, Command.told_history hh, items_counted]
  · intro hc
    have hne : command ≠ .quit := hc ▸ nofun
    rw [hopen hne, hc, Command.told_users, items_counted]

/-- Whatever is asked, only a list of users or of lines that is too long by its first line is cut
off, and only at its end. -/
theorem reply_queued (ha : l.Answers h text s now room s')
    (empty : s.outbox = .create Limits.standard.outboundQueue) :
    Queued h l.session room (.parse text) s'.outbox.items := by
  apply queued_of_items (Command.wellFormed_of_reads (Command.reads_parse text))
  have hplain : ∀ {room : Option String}, (Command.parse text).plan l.session room ≠ .quit →
      ∀ messages, s.stopped = false → (s.tellAll messages).outbox.items =
        (messages.take Limits.standard.outboundQueue).map (fun m => .text m.text) ++
          if Command.parse text = .quit then [.close] else [] := by
    intro room hne messages running
    rw [if_neg (mt Command.plan_eq_quit_iff.2 hne), List.append_nil, s.items_told running empty]
    rfl
  unfold Command.told
  cases ha with
  | atOnce reading planned stepped =>
    cases step_of_eq_some stepped with
    | reply _ running hp =>
      rw [hp]
      exact hplain (by rw [hp]; exact nofun) _ running
    | post _ _ hp => exact absurd hp (planned _)
    | quit _ running hp =>
      rw [hp, if_pos (Command.plan_eq_quit_iff.1 hp)]
      exact s.items_farewell running empty
    | discard flushing => exact nomatch reading.symm.trans flushing
    | hangUp ends => cases ends
  | @later _ request _ _ waiting planned stepped =>
    cases step_of_eq_some stepped with
    | answer hwaiting running =>
      cases Reader.waiting.inj (waiting.symm.trans hwaiting)
      rw [planned]
      exact hplain (by rw [planned]; exact nofun) _ running

def century : Archive :=
  Archive.empty.insert LogFile.openChat.place
    (.text (String.ofList (List.replicate 100 ['x', '\n']).flatten))

theorem tail_century : ∃ lines, century.tail .openChat 100 = .ok lines ∧ lines.length = 100 := by
  refine ⟨_, rfl, ?_⟩
  rw [Text.length_lastN, Text.lines, List.length_map, String.toList_ofList]
  decide +kernel

theorem reply_queued_century :
    let h := (Hub.start .standard (some century) "").run [.create "a" .line 100, .request (.join 0)]
    let l : Link := ⟨0, .waiting ⟨.parse "/history 100", none, .history 0 100⟩, .taking, .pending⟩
    let s := Session.create "a" .line 100
    ∃ s', l.Answers h "/history 100" s 0 none s' ∧
      s.outbox = .create Limits.standard.outboundQueue ∧
      Queued h 0 none (.parse "/history 100") s'.outbox.items ∧
      (Command.parse "/history 100").Overflows h 0 ∧
      ¬ ((Command.parse "/history 100").told h 0 none).map (fun m => .text m.text) <+:
        s'.outbox.items := by
  intro h l s
  have hparse : Command.parse "/history 100" = .history 100 := by decide +kernel
  have hroom : (h.session 0).map (·.profile.room) = .ok none := by decide +kernel
  obtain ⟨asker, hasker, hnowhere⟩ := Hub.of_map_eq_ok hroom
  obtain ⟨lines, htail, hcount⟩ := tail_century
  have hh : h.history 0 100 = .ok (none, lines) :=
    Hub.history_eq_ok_iff.2 ⟨century, asker, rfl, hasker, hnowhere.symm, by rwa [hnowhere]⟩
  have hover : (Command.parse "/history 100").Overflows h 0 := by
    rw [hparse]
    exact ⟨rfl, none, lines, hh, hcount⟩
  have hanswers : l.Answers h "/history 100" s 0 none _ :=
    .later rfl (by rw [hparse]; rfl) rfl
  have hqueued := reply_queued hanswers rfl
  exact ⟨_, hanswers, rfl, hqueued, hover, fun hwhole => hqueued.whole_iff.1 hwhole hover⟩

end Link
end ChatRelay

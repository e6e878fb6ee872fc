import ChatRelay.Proofs.OneLine.Lines
import ChatRelay.Proofs.OneLine.Plain

/-! What chat leaves in a log. The log of a scope holds a line for everything that was said there,
in the order in which it was said, under the name that its sender had then; private messages go
elsewhere, and nothing else is logged. -/

namespace ChatRelay

namespace Text

theorem lastN_suffix {α : Type} (n : Nat) (xs : List α) : lastN n xs <:+ xs :=
  List.drop_suffix _ xs

theorem length_lastN {α : Type} (n : Nat) (xs : List α) :
    (lastN n xs).length = min n xs.length := by
  rw [lastN, List.length_drop]
  omega

end Text

def Note.line (n : Note) : String := n.stamp ++ " [" ++ n.sender ++ "]: " ++ n.body

namespace Archive

variable {a : Archive} {file other : LogFile} {lines : List String} {line : String}

/-- A log that holds these lines, each of them complete. -/
def Holds (a : Archive) (file : LogFile) (lines : List String) : Prop :=
  a.get? file = none ∧ lines = [] ∨
    ∃ content, a.get? file = some (.text content) ∧ Complete content ∧ Text.lines content = lines

theorem holds_empty (file : LogFile) : empty.Holds file [] := .inl ⟨get?_empty file, rfl⟩

theorem Holds.tail (ha : a.Holds file lines) (fits : file.nameTooLong = false) (limit : Nat) :
    a.tail file limit = .ok (Text.lastN limit lines) := by
  rw [Archive.tail, fits, if_neg Bool.false_ne_true]
  rcases ha with ⟨hget, rfl⟩ | ⟨content, hget, -, rfl⟩
  · rw [hget]
    exact congrArg Except.ok (List.drop_nil ..).symm
  · rw [hget]

theorem complete_concat (text : String) : Complete (text ++ "\n") := by
  intro c hc
  rw [String.toList_append, show ("\n" : String).toList = ['\n'] from rfl,
    List.getLast?_concat] at hc
  exact (Option.some.inj hc).symm

theorem Holds.append (ha : a.Holds file lines) (fits : file.nameTooLong = false)
    (hl : OneLine line) (hr : line.toList.getLast? ≠ some '\r') :
    (a.append file line).Holds file (lines ++ [line]) := by
  have hget : (a.append file line).get? file = Archived.extend line (a.get? file) := by
    rw [get?_append, if_pos ⟨rfl, fits⟩]
  rcases ha with ⟨hnone, rfl⟩ | ⟨content, hsome, hcomplete, rfl⟩
  · have hlines : Text.lines (line ++ "\n") = [line] := by
      have hempty : Complete "" := fun _ hc => nomatch hc
      have hone := Text.lines_append hempty hl hr
      rw [String.empty_append] at hone
      exact hone
    rw [hnone] at hget
    exact .inr ⟨_, hget, complete_concat line, hlines⟩
  · rw [hsome] at hget
    exact .inr ⟨_, hget, complete_concat _, Text.lines_append hcomplete hl hr⟩

theorem Holds.append_of_ne (ha : a.Holds file lines) (hne : other ≠ file) (line : String) :
    (a.append other line).Holds file lines := by
  have hget : (a.append other line).get? file = a.get? file := by
    rw [get?_append, if_neg fun h => hne h.1.symm]
  unfold Holds
  rwa [hget]

end Archive

namespace Hub

variable {limits : Limits} {h : Hub} {e : Event} {es : List Event} {id : SessionId}

def noted? (h : Hub) : Event → Option Note
  | .request (.chat id body) =>
    match h.requester id with
    | .error _ => none
    | .ok s =>
      match s.profile.room with
      | none => some ⟨.openChat, h.stamp, s.displayName, body⟩
      | some name => (h.rooms.get? name).map fun _ => ⟨.room name, h.stamp, s.displayName, body⟩
  | _ => none

def chatted (h : Hub) : List Event → List Note
  | [] => []
  | e :: es => (h.noted? e).toList ++ (h.step e).chatted es

def chatLines (h : Hub) (file : LogFile) (es : List Event) : List String :=
  ((h.chatted es).filter (·.conversation.file = file)).map Note.line

/-- The log that an event makes grow, and by what line. -/
def logged? (h : Hub) : Event → Option (LogFile × String)
  | .request request => h.written? request
  | _ => none

theorem chatted_append (h : Hub) (as bs : List Event) :
    h.chatted (as ++ bs) = h.chatted as ++ (h.run as).chatted bs := by
  induction as generalizing h with
  | nil => rfl
  | cons e es ih => simp only [List.cons_append, chatted, run, ih, List.append_assoc]

theorem chatLines_concat (h : Hub) (file : LogFile) (es : List Event) (e : Event) :
    h.chatLines file (es ++ [e]) = h.chatLines file es ++
      (((h.run es).noted? e).toList.filter (·.conversation.file = file)).map Note.line := by
  have hlast : (h.run es).chatted [e] = ((h.run es).noted? e).toList := List.append_nil _
  rw [chatLines, chatted_append, hlast, List.filter_append, List.map_append]
  rfl

theorem archive_step (h : Hub) (e : Event) :
    (h.step e).archive = h.archive.map fun a =>
      (h.logged? e).elim a fun entry => a.append entry.1 entry.2 := by
  cases e with
  | request request => exact congrArg Prod.fst (h.records_handle request)
  | create | act | expire | tick => exact (Option.map_id_apply ..).symm

theorem logged?_cases (h : Hub) (e : Event) :
    h.logged? e = (h.noted? e).map (fun n => (n.conversation.file, n.line)) ∨
      h.noted? e = none ∧ ∃ a b line, h.logged? e = some (.pair a b, line) := by
  cases e with
  | request request =>
    cases request with
    | chat id body =>
      refine .inl ?_
      rw [logged?, written?, noted?]
      cases hq : h.requester id with
      | error fault => rw [if_neg (not_hears_of_requester hq), Option.map_none]
      | ok s =>
        have hname : h.nameOf id = s.displayName := nameOf_of_get? (get?_of_requester hq)
        rw [if_pos (hears_of_requester hq), profile_of_requester hq, hname]
        dsimp only
        cases s.profile.room with
        | none => rfl
        | some name =>
          dsimp only
          rw [Option.map_map]
          rfl
    | whisper id target body =>
      rw [logged?, written?]
      split
      · cases h.holder? target with
        | none => exact .inl rfl
        | some receiver => exact .inr ⟨rfl, _, _, _, rfl⟩
      · exact .inl rfl
    | _ => exact .inl rfl
  | create | act | expire | tick => exact .inl rfl

theorem of_noted (hv : h.Voiced OneLine) (ha : h.Addressed) {n : Note} (hn : h.noted? e = some n) :
    ∃ id body, e = .request (.chat id body) ∧ (OneLine body → OneLine n.line) ∧
      (body.toList.getLast? ≠ some '\r' → n.line.toList.getLast? ≠ some '\r') := by
  unfold noted? at hn
  split at hn
  · next id body =>
    refine ⟨id, body, rfl, ?_⟩
    split at hn
    · cases hn
    · next s hq =>
      have hname : OneLine s.displayName := (hv (get?_of_requester hq)).displayName
      have hboth : n.body = body ∧ n.sender = s.displayName ∧ n.stamp = h.stamp := by
        split at hn
        · cases hn
          exact ⟨rfl, rfl, rfl⟩
        · obtain ⟨room, -, rfl⟩ := Option.map_eq_some_iff.1 hn
          exact ⟨rfl, rfl, rfl⟩
      obtain ⟨rfl, hsender, hstamp⟩ := hboth
      refine ⟨fun hone => ?_, Archive.getLast?_line⟩
      simp only [Note.line, oneLine_append, hsender, hstamp]
      exact ⟨⟨⟨⟨ha.stamp, oneLine_ofList (by decide)⟩, hname⟩, oneLine_ofList (by decide)⟩, hone⟩
  · cases hn

def Event.Tidy : Event → Prop
  | .request (.chat _ body) => OneLine body ∧ body.toList.getLast? ≠ some '\r'
  | _ => True

instance : DecidablePred Event.Tidy
  | .request (.chat ..) => inferInstanceAs (Decidable (_ ∧ _))
  | .request (.join _) | .request (.leave _) | .request (.register ..) | .request (.joinRoom ..)
  | .request (.leaveRoom ..) | .request (.broadcast ..) | .request (.broadcastIn ..)
  | .request (.whisper ..) | .request (.history ..) | .request (.users _) | .request .status
  | .request .shutDown | .create .. | .act .. | .expire _ | .tick _ => .isTrue trivial

theorem holds_chatLines {stamp : String} (one : OneLine stamp) (plain : ∀ e ∈ es, Event.Plain e)
    (tidy : ∀ e ∈ es, Event.Tidy e) (hf : (start limits (some .empty) stamp).feasible es)
    {scope : Option String} (fits : (LogFile.ofScope scope).nameTooLong = false) :
    ∃ a, ((start limits (some .empty) stamp).run es).archive = some a ∧
      a.Holds (.ofScope scope)
        ((start limits (some .empty) stamp).chatLines (.ofScope scope) es) := by
  refine prefix_induction (P := fun p =>
    ∃ a, ((start limits (some .empty) stamp).run p).archive = some a ∧ a.Holds (.ofScope scope)
      ((start limits (some .empty) stamp).chatLines (.ofScope scope) p)) hf ?_ ?_ es
    (List.prefix_refl es)
  · exact ⟨.empty, rfl, Archive.holds_empty _⟩
  · rintro p e hp - ⟨a, ha, hholds⟩
    have hbefore : p <+: es := (List.prefix_append p [e]).trans hp
    have hplain : ((start limits (some .empty) stamp).run p).Plain limits :=
      ⟨_, stamp, p, one, fun d hd => plain d (hbefore.subset hd), feasible_before hf hbefore, rfl⟩
    have he : e ∈ es := hp.subset (List.mem_append_right p (List.mem_singleton_self e))
    rw [chatLines_concat, run_concat, archive_step, ha, Option.map_some]
    refine ⟨_, rfl, ?_⟩
    rcases logged?_cases ((start limits (some .empty) stamp).run p) e with
      hchat | ⟨hnone, first, second, line, hpair⟩
    · rw [hchat]
      cases hn : ((start limits (some .empty) stamp).run p).noted? e with
      | none =>
        rw [Option.map_none, Option.elim_none]
        exact (List.append_nil _).symm ▸ hholds
      | some n =>
        obtain ⟨id, body, rfl, hline, hlast⟩ := of_noted hplain.voiced hplain.addressed hn
        obtain ⟨hone, hreturn⟩ := tidy _ he
        rw [Option.map_some, Option.elim_some, Option.toList_some, List.filter_singleton]
        by_cases hfile : n.conversation.file = .ofScope scope
        · rw [hfile, decide_eq_true rfl]
          exact hholds.append fits (hline hone) (hlast hreturn)
        · rw [decide_eq_false hfile]
          exact (List.append_nil _).symm ▸ hholds.append_of_ne hfile _
    · rw [hpair, hnone, Option.elim_some]
      exact (List.append_nil _).symm ▸
        hholds.append_of_ne (LogFile.ofScope_ne_pair scope first second).symm line

end Hub
end ChatRelay

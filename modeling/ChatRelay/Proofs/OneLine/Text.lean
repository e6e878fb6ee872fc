import ChatRelay.Command
import ChatRelay.Message

/-! What takes up one line. The texts of the relay itself have no line feed, so that a message is
one line if all that it passes on from elsewhere is. -/

namespace ChatRelay

def OneLine (text : String) : Prop := '\n' ∉ text.toList

instance (text : String) : Decidable (OneLine text) := inferInstanceAs (Decidable (¬ _))

variable {a b : String}

@[simp] theorem oneLine_append : OneLine (a ++ b) ↔ OneLine a ∧ OneLine b := by
  simp only [OneLine, String.toList_append, List.mem_append, not_or]

theorem oneLine_ofList {cs : List Char} (h : '\n' ∉ cs) : OneLine (String.ofList cs) := by
  rwa [OneLine, String.toList_ofList]

@[simp] theorem oneLine_repr (n : Nat) : OneLine n.repr := by
  intro h
  rw [Nat.toList_repr] at h
  exact absurd (Nat.isDigit_of_mem_toDigits (by decide) (by decide) h) (by decide)

theorem oneLine_intercalate {texts : List String} (hs : OneLine a) (h : ∀ t ∈ texts, OneLine t) :
    OneLine (a.intercalate texts) := by
  induction texts with
  | nil => exact List.not_mem_nil
  | cons t ts ih =>
    cases ts with
    | nil => simpa using h
    | cons u us =>
      rw [String.intercalate_cons_cons, oneLine_append, oneLine_append]
      exact ⟨⟨h t List.mem_cons_self, hs⟩, ih fun x hx => h x (List.mem_cons_of_mem _ hx)⟩

theorem not_mem_of_no_blank {cs : List Char} (h : ∀ c ∈ cs, ¬ Text.isBlank c) : '\n' ∉ cs :=
  fun hc => h '\n' hc (by decide)

theorem oneLine_of_flaw? {kind : Name.Kind} {limit : Nat}
    (h : Name.flaw? kind limit a = none) : OneLine a :=
  not_mem_of_no_blank (Name.flaw?_eq_none_iff.1 h).2.1

/-! ### Messages -/

namespace Message

def parts : Message → List String
  | temporaryId id => [id]
  | arrived name | departed name | memberJoined name | userEntry name _ => [name]
  | nicknameChanged nickname => [nickname]
  | nicknameAnnounced old new => [old, new]
  | roomJoined room | alreadyHere room | roomLeft room => [room]
  | roomRoster members => members
  | memberLeft name room => [name, room]
  | roomChat sender room body => [sender, room, body]
  | chat sender body | privateFrom sender body => [sender, body]
  | privateSent target body => [target, body]
  | helpLine line | historyLine line => [line]
  | historyHeader scope _ => [scope]
  | usage text | error text => [text]
  | unknownCommand word => [word]
  | banner | nicknameHint | helpHint | joinHint | userListHeader _ | helpBegin | helpEnd
  | goodbye => []

theorem oneLine_text {m : Message} (h : ∀ part ∈ m.parts, OneLine part) : OneLine m.text := by
  unfold text
  cases m with
  | roomRoster members =>
    have hm : OneLine (", ".intercalate members) :=
      oneLine_intercalate (oneLine_ofList (by decide)) h
    simp [hm]
    and_intros <;> exact oneLine_ofList (by decide)
  | userEntry name isSelf =>
    simp only [parts, List.mem_singleton, forall_eq] at h
    cases isSelf <;> simp [h] <;> and_intros <;> exact oneLine_ofList (by decide)
  | _ =>
    simp [parts] at h
    simp [h] <;> and_intros <;> exact oneLine_ofList (by decide)

theorem oneLine_of_part {m : Message} {part : String} (hm : m.parts = [part])
    (h : OneLine part) : OneLine m.text :=
  oneLine_text (hm ▸ List.forall_mem_singleton.2 h)

theorem oneLine_scopeText {scope : Option String}
    (h : ∀ {room}, scope = some room → OneLine room) : OneLine (scopeText scope) := by
  cases scope with
  | none => exact oneLine_ofList (by decide)
  | some room =>
    rw [scopeText, oneLine_append, oneLine_append]
    exact ⟨⟨oneLine_ofList (by decide), h rfl⟩, oneLine_ofList (by decide)⟩

end Message

namespace Fault

def named? : Fault → Option String
  | invalidName _ name .reserved | nicknameTaken name | alreadyInRoom name | roomFull name
  | userNotFound name => some name
  | _ => none

theorem oneLine_reply {fault : Fault} (h : ∀ name, fault.named? = some name → OneLine name) :
    OneLine fault.reply := by
  cases fault with
  | invalidName kind name flaw =>
    unfold reply Name.Flaw.reply Name.Kind.subject
    cases flaw with
    | reserved =>
      cases kind <;> simp [h name rfl] <;> and_intros <;> exact oneLine_ofList (by decide)
    | _ => cases kind <;> simp <;> and_intros <;> exact oneLine_ofList (by decide)
  | nicknameTaken name | alreadyInRoom name | roomFull name | userNotFound name =>
    unfold reply
    simp [h name rfl]
    and_intros <;> exact oneLine_ofList (by decide)
  | _ => exact oneLine_ofList (by decide)

end Fault

/-! ### Commands -/

namespace Text

theorem getLast?_dropEndWhile {p : Char → Bool} {cs : List Char} {c : Char}
    (h : (dropEndWhile p cs).getLast? = some c) : p c = false := by
  rw [dropEndWhile, List.getLast?_reverse] at h
  have hd := List.head?_dropWhile_not p cs.reverse
  rw [h] at hd
  exact hd

theorem dropEndWhile_subset (p : Char → Bool) (cs : List Char) : dropEndWhile p cs ⊆ cs :=
  fun _ hc => List.mem_reverse.1 ((List.dropWhile_sublist p).subset (List.mem_reverse.1 hc))

theorem trim_subset (cs : List Char) : trim cs ⊆ cs :=
  List.Subset.trans (dropEndWhile_subset _ _) (List.dropWhile_sublist _).subset

theorem subset_of_cutAtBlank {cs word rest : List Char} (h : cutAtBlank cs = some (word, rest)) :
    rest ⊆ cs := by
  induction cs generalizing word with
  | nil => cases h
  | cons c cs ih =>
    rw [cutAtBlank] at h
    split at h
    · cases h
      exact List.subset_cons_self _ _
    · obtain ⟨⟨word', rest'⟩, hcut, hw⟩ := Option.map_eq_some_iff.1 h
      cases hw
      exact List.Subset.trans (ih hcut) (List.subset_cons_self _ _)

theorem no_blank_of_cutAtBlank {cs word rest : List Char}
    (h : cutAtBlank cs = some (word, rest)) : ∀ c ∈ word, ¬ isBlank c := by
  induction cs generalizing word with
  | nil => cases h
  | cons c cs ih =>
    rw [cutAtBlank] at h
    split at h
    · cases h
      exact fun _ h => absurd h List.not_mem_nil
    · next hc =>
      obtain ⟨⟨word', rest'⟩, hcut, hw⟩ := Option.map_eq_some_iff.1 h
      cases hw
      exact List.forall_mem_cons.2 ⟨hc, ih hcut⟩

theorem no_blank_of_cutAtBlank_none {cs : List Char} (h : cutAtBlank cs = none) :
    ∀ c ∈ cs, ¬ isBlank c := by
  induction cs with
  | nil => exact fun _ h => absurd h List.not_mem_nil
  | cons c cs ih =>
    rw [cutAtBlank] at h
    split at h
    · cases h
    · next hc => exact List.forall_mem_cons.2 ⟨hc, ih (Option.map_eq_none_iff.1 h)⟩

end Text

namespace Command

def said? : Command → Option String
  | chat body | pm _ body => some body
  | _ => none

/-- A word that is repeated has no line feed, and nothing that is said ends in a carriage return. -/
structure Tidy (c : Command) : Prop where
  target : ∀ {name body}, c = .pm name body → OneLine name
  word : ∀ {word}, c = .unknown word → OneLine word
  said : ∀ {body}, c.said? = some body → body.toList.getLast? ≠ some '\r'

theorem tidy_ofPm (args : List Char) : (ofPm args).Tidy := by
  unfold ofPm
  split
  · exact ⟨nofun, nofun, nofun⟩
  · next target rest hcut =>
    dsimp only
    split
    · exact ⟨nofun, nofun, nofun⟩
    · refine ⟨fun h => ?_, nofun, fun h => ?_⟩
      · cases h
        exact oneLine_ofList (not_mem_of_no_blank (Text.no_blank_of_cutAtBlank hcut))
      · cases h
        rw [String.toList_ofList]
        intro hl
        cases (Text.getLast?_dropEndWhile hl : Text.isBlank '\r' = false)

theorem tidy_ofHistory (args : List Char) : (ofHistory args).Tidy := by
  unfold ofHistory
  split
  · exact ⟨nofun, nofun, nofun⟩
  · split <;> exact ⟨nofun, nofun, nofun⟩

theorem tidy_ofWord {word : List Char} (h : ∀ c ∈ word, ¬ Text.isBlank c) (args : List Char) :
    (ofWord (String.ofList word) args).Tidy := by
  unfold ofWord
  split
  case h_8 => exact tidy_ofPm args
  case h_9 => exact tidy_ofHistory args
  case h_10 =>
    refine ⟨nofun, fun hw => ?_, nofun⟩
    cases hw
    exact oneLine_ofList (not_mem_of_no_blank h)
  all_goals exact ⟨nofun, nofun, nofun⟩

theorem tidy_parse (input : String) : (parse input).Tidy := by
  unfold parse
  dsimp only
  split
  · exact ⟨nofun, nofun, nofun⟩
  · split
    · next hcut => exact tidy_ofWord (Text.no_blank_of_cutAtBlank_none hcut) []
    · next hcut => exact tidy_ofWord (Text.no_blank_of_cutAtBlank hcut) _
  · refine ⟨nofun, nofun, fun h => ?_⟩
    cases h
    rw [String.toList_ofList]
    intro hl
    cases (Text.getLast?_dropEndWhile hl : Text.isLineEnding '\r' = false)

theorem said?_ofWord {word : String} {args : List Char} {body : String}
    (h : (ofWord word args).said? = some body) : body.toList ⊆ args := by
  unfold ofWord at h
  split at h
  case h_8 =>
    unfold ofPm at h
    split at h
    · cases h
    · next target rest hcut =>
      dsimp only at h
      split at h
      · cases h
      · cases h
        rw [String.toList_ofList]
        exact List.Subset.trans (Text.trim_subset rest) (Text.subset_of_cutAtBlank hcut)
  case h_9 =>
    unfold ofHistory at h
    repeat' split at h
    all_goals cases h
  all_goals cases h

theorem said?_parse {input body : String} (h : (parse input).said? = some body) :
    body.toList ⊆ input.toList := by
  have hline : Text.dropLineEndings input.toList ⊆ input.toList := Text.dropEndWhile_subset _ _
  have htrim := List.Subset.trans (Text.trim_subset _) hline
  unfold parse at h
  dsimp only at h
  split at h
  · cases h
  · split at h
    · next hcut => exact List.Subset.trans (said?_ofWord h) (List.nil_subset _)
    · next hcut =>
      have hrest := List.Subset.trans (Text.subset_of_cutAtBlank hcut) htrim
      exact List.Subset.trans (said?_ofWord h) (List.Subset.trans (Text.trim_subset _) hrest)
  · cases h
    rwa [String.toList_ofList]

end Command

end ChatRelay

import ChatRelay.Archive
import Mathlib.Data.List.Forall2
import Mathlib.Data.String.Basic

/-! Which conversations share a log. A conversation is the open chat, a room or two people; its log
is named after it, but several characters become one in the name of a file, and the names of two
people are only put side by side. What is said in one conversation can be read in another exactly
if their names come out alike. -/

namespace ChatRelay

namespace LogFile

theorem place_inj {f g : LogFile} : f.place = g.place ↔ f = g := by
  obtain ⟨folder, name⟩ := f
  obtain ⟨folder', name'⟩ := g
  cases folder <;> cases folder' <;> simp [place, Folder.text]

def merged (c : Char) : Bool := unsafeChar c || c == '_'

def Alike (a b : String) : Prop :=
  List.Forall₂ (fun c d => c = d ∨ merged c ∧ merged d) a.toList b.toList

instance (a b : String) : Decidable (Alike a b) := inferInstanceAs (Decidable (List.Forall₂ ..))

theorem safe_eq_iff {c d : Char} :
    (if unsafeChar c then '_' else c) = (if unsafeChar d then '_' else d) ↔
      c = d ∨ merged c ∧ merged d := by
  simp only [merged, Bool.or_eq_true, beq_iff_eq]
  by_cases hc : unsafeChar c <;> by_cases hd : unsafeChar d <;> grind

theorem sanitize_eq_iff {a b : String} : sanitize a = sanitize b ↔ Alike a b := by
  unfold sanitize Alike
  rw [String.ofList_inj, ← List.forall₂_eq_eq_eq, List.forall₂_map_left_iff,
    List.forall₂_map_right_iff]
  simp only [safe_eq_iff]

theorem sanitize_append (a b : String) : sanitize (a ++ b) = sanitize a ++ sanitize b := by
  simp [sanitize]

def sideBySide (a b : String) : String := if a ≤ b then a ++ "_" ++ b else b ++ "_" ++ a

theorem pair_eq (a b : String) : pair a b = ⟨.pairs, sanitize (sideBySide a b) ++ ".txt"⟩ := by
  have hmark : sanitize "_" = "_" := by decide
  unfold pair sideBySide
  by_cases h : a ≤ b <;> simp only [h, if_true, if_false, sanitize_append, hmark]

theorem ofScope_ne_pair (scope : Option String) (a b : String) : ofScope scope ≠ pair a b := by
  rw [pair_eq]
  cases scope <;> simp [ofScope, room, openChat]

theorem sideBySide_comm (a b : String) : sideBySide a b = sideBySide b a := by
  unfold sideBySide
  rcases lt_trichotomy a b with h | rfl | h
  · rw [if_pos h.le, if_neg h.not_ge]
  · rfl
  · rw [if_neg h.not_ge, if_pos h.le]

end LogFile

def Archived.extend (line : String) : Option Archived → Option Archived
  | none => some (.text (line ++ "\n"))
  | some (.text content) => some (.text (content ++ line ++ "\n"))
  | some (.binary bytes) => some (.binary (bytes ++ Text.toBytes (line ++ "\n")))
  | some .directory => some .directory

namespace Archive

variable {a b : Archive} {f g : LogFile}

theorem get?_insert_place (a : Archive) (f g : LogFile) (x : Archived) :
    (a.insert f.place x).get? g = if g = f then some x else a.get? g := by
  rw [get?, insert, Registry.get?_insert]
  simp only [LogFile.place_inj]
  rfl

theorem get?_append (a : Archive) (f g : LogFile) (line : String) :
    (a.append f line).get? g =
      if g = f ∧ f.nameTooLong = false then Archived.extend line (a.get? g) else a.get? g := by
  unfold append
  by_cases hl : f.nameTooLong
  · rw [if_pos hl, if_neg fun h => by simp [hl] at h]
  · rw [if_neg hl]
    rw [Bool.not_eq_true] at hl
    by_cases hg : g = f
    · subst hg
      rw [if_pos ⟨rfl, hl⟩]
      cases hx : a.get? g with
      | none => simp only [get?_insert_place, if_true, Archived.extend]
      | some x =>
        cases x with
        | directory => exact hx
        | text content => simp only [get?_insert_place, if_true, Archived.extend]
        | binary bytes => simp only [get?_insert_place, if_true, Archived.extend]
    · rw [if_neg fun h => hg h.1]
      cases hx : a.get? f with
      | none => simp only [get?_insert_place, hg, if_false]
      | some x =>
        cases x with
        | directory => rfl
        | text content => simp only [get?_insert_place, hg, if_false]
        | binary bytes => simp only [get?_insert_place, hg, if_false]

theorem tail_congr (h : a.get? f = b.get? f) (limit : Nat) : a.tail f limit = b.tail f limit := by
  unfold tail
  rw [h]

theorem tail_of_nameTooLong (h : f.nameTooLong) (limit : Nat) :
    a.tail f limit = .error (.io .nameTooLong) := by
  rw [tail, if_pos h]

theorem get?_empty (f : LogFile) : empty.get? f = none := by
  simp [empty, get?, folders, Registry.get?_insert, LogFile.place]

theorem tail_empty (h : f.nameTooLong = false) (limit : Nat) : empty.tail f limit = .ok [] := by
  rw [tail, h, if_neg Bool.false_ne_true, get?_empty]

end Archive

inductive Conversation
  | openChat
  | room (name : String)
  | pair (a b : String)
  deriving DecidableEq, Repr

namespace Conversation

def file : Conversation → LogFile
  | openChat => .openChat
  | room name => .room name
  | pair a b => .pair a b

def turned : Conversation → Conversation
  | pair a b => pair b a
  | c => c

def Same (c d : Conversation) : Prop := c = d ∨ c = d.turned

instance (c d : Conversation) : Decidable (c.Same d) := inferInstanceAs (Decidable (_ ∨ _))

/-- Conversations of one kind whose names come out alike. -/
def Confused : Conversation → Conversation → Prop
  | openChat, openChat => True
  | room a, room b => LogFile.Alike a b
  | pair a b, pair c d => LogFile.Alike (LogFile.sideBySide a b) (LogFile.sideBySide c d)
  | _, _ => False

theorem file_eq_iff {c d : Conversation} : c.file = d.file ↔ c.Confused d := by
  cases c <;> cases d <;>
    simp [file, Confused, LogFile.openChat, LogFile.room, LogFile.pair_eq, LogFile.sanitize_eq_iff]

theorem file_turned (c : Conversation) : c.turned.file = c.file := by
  cases c with
  | pair a b => rw [turned, file, file, LogFile.pair_eq, LogFile.pair_eq, LogFile.sideBySide_comm]
  | _ => rfl

theorem file_eq_of_same {c d : Conversation} (h : c.Same d) : c.file = d.file := by
  rcases h with rfl | rfl
  · rfl
  · exact file_turned d

end Conversation

/-- Something said in a conversation. -/
structure Note where
  conversation : Conversation
  stamp : String
  sender : String
  body : String

namespace Archive

def note (a : Archive) (n : Note) : Archive :=
  a.append n.conversation.file (line n.stamp n.sender n.body)

def record (a : Archive) (notes : List Note) : Archive := notes.foldl note a

variable {a b : Archive} {f : LogFile}

theorem get?_note_congr (h : a.get? f = b.get? f) (n : Note) :
    (a.note n).get? f = (b.note n).get? f := by
  rw [note, note, get?_append, get?_append, h]

theorem get?_note_of_ne {n : Note} (h : n.conversation.file ≠ f) :
    (a.note n).get? f = a.get? f := by
  rw [note, get?_append, if_neg fun hf => h hf.1.symm]

theorem get?_record_filter (keep : Note → Bool) {notes : List Note}
    (h : ∀ n ∈ notes, keep n = false → n.conversation.file ≠ f) (hab : a.get? f = b.get? f) :
    (a.record notes).get? f = (b.record (notes.filter keep)).get? f := by
  induction notes generalizing a b with
  | nil => exact hab
  | cons n ns ih =>
    have hrest : ∀ m ∈ ns, keep m = false → m.conversation.file ≠ f := fun m hm =>
      h m (List.mem_cons_of_mem n hm)
    cases hk : keep n with
    | true =>
      rw [List.filter_cons_of_pos hk]
      exact ih hrest (get?_note_congr hab n)
    | false =>
      rw [List.filter_cons_of_neg (Bool.not_eq_true _ ▸ hk)]
      refine ih hrest ?_
      rw [get?_note_of_ne (h n List.mem_cons_self hk), hab]

end Archive

namespace Conversation

/-- Whatever is said in `c`, it makes no difference to what is read of `d`. -/
def Isolated (c d : Conversation) : Prop :=
  ∀ (a : Archive) (notes : List Note) (limit : Nat), (a.record notes).tail d.file limit =
    (a.record (notes.filter fun n => ¬ n.conversation.Same c)).tail d.file limit

theorem tail_note {c : Conversation} (h : c.file.nameTooLong = false) :
    (Archive.empty.note ⟨c, "", "", ""⟩).tail c.file 1 = .ok [" []: "] := by
  have hget : (Archive.empty.note ⟨c, "", "", ""⟩).get? c.file =
      some (.text (Archive.line "" "" "" ++ "\n")) := by
    rw [Archive.note, Archive.get?_append, if_pos ⟨rfl, h⟩, Archive.get?_empty]
    rfl
  rw [Archive.tail, h, if_neg Bool.false_ne_true, hget]
  decide

theorem isolated_of_ne {c d : Conversation} (h : c.file ≠ d.file) : c.Isolated d := by
  intro a notes limit
  refine Archive.tail_congr (Archive.get?_record_filter _ (fun n _ hn => ?_) rfl) limit
  rw [file_eq_of_same (by simpa using hn)]
  exact h

theorem isolated_of_nameTooLong {c : Conversation} (h : c.file.nameTooLong) (d : Conversation) :
    c.Isolated d := by
  by_cases hf : c.file = d.file
  · intro a notes limit
    rw [hf] at h
    rw [Archive.tail_of_nameTooLong h, Archive.tail_of_nameTooLong h]
  · exact isolated_of_ne hf

/-- Nothing said in one conversation can be read in another, unless they are of one kind and their
names come out alike in a name that a file can have. -/
theorem isolated_iff (c d : Conversation) :
    c.Isolated d ↔ ¬ (c.Confused d ∧ c.file.nameTooLong = false) := by
  constructor
  · rintro hi ⟨hc, hl⟩
    have hfile := file_eq_iff.2 hc
    have hone := tail_note hl
    have hnone := Archive.tail_empty hl 1
    have hsame : c.Same c := .inl rfl
    have hnote := hi .empty [⟨c, "", "", ""⟩] 1
    rw [List.filter_cons_of_neg (by simp [hsame]), List.filter_nil, ← hfile] at hnote
    -- the note is read in `c`, so that leaving it out shows in `d`
    have hread := hone.symm.trans (hnote.trans hnone)
    cases hread
  · intro h
    by_cases hl : c.file.nameTooLong
    · exact isolated_of_nameTooLong hl d
    · rw [Bool.not_eq_true] at hl
      exact isolated_of_ne fun hf => h ⟨file_eq_iff.1 hf, hl⟩

theorem not_isolated_merged :
    (∀ name ∈ ["a.b", "a_b"], Name.check .room 20 name = .ok ()) ∧
      (∀ name ∈ ["a_b", "c", "a", "b_c"], Name.check .nickname 20 name = .ok ()) ∧
      ¬ (room "a.b").Isolated (room "a_b") ∧
      ¬ (pair "a_b" "c").Isolated (pair "a" "b_c") := by
  have hrooms : (room "a.b").Confused (room "a_b") := (by decide : LogFile.Alike "a.b" "a_b")
  have hpairs : (pair "a_b" "c").Confused (pair "a" "b_c") :=
    (by decide : LogFile.Alike (LogFile.sideBySide "a_b" "c") (LogFile.sideBySide "a" "b_c"))
  refine ⟨by decide, by decide, fun h => ?_, fun h => ?_⟩
  · exact (isolated_iff _ _).1 h ⟨hrooms, by decide⟩
  · exact (isolated_iff _ _).1 h ⟨hpairs, by decide⟩

end Conversation
end ChatRelay

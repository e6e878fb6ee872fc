import ChatRelay.Proofs.Admission
import ChatRelay.Proofs.OneLine.Text

/-! Who said what, as it can be read off a line of chat. Names are words, so that the first blank
of a line ends what is before it, and a line tells apart all that was said in the open, in a room or
in private. The one exception is a name that ends like the brackets of the line do: under it, chat
in a room looks as if somebody else said it in the open. -/

namespace ChatRelay

namespace Text

def OneWord (text : String) : Prop := text.toList.all (!isBlank ·)

instance (text : String) : Decidable (OneWord text) := inferInstanceAs (Decidable (_ = true))

variable {a b c d : String}

theorem oneWord_append : OneWord (a ++ b) ↔ OneWord a ∧ OneWord b := by
  rw [OneWord, String.toList_append, List.all_append, Bool.and_eq_true]
  rfl

theorem oneWord_of_no_blank (h : ∀ x ∈ a.toList, ¬ isBlank x) : OneWord a := by
  apply List.all_eq_true.2
  intro x hx
  rw [Bool.not_eq_true', ← Bool.not_eq_true]
  exact h x hx

theorem word_inj (ha : OneWord a) (hc : OneWord c) :
    a ++ " " ++ b = c ++ " " ++ d ↔ a = c ∧ b = d := by
  constructor
  · intro heq
    have hcut : ∀ {x y : String}, OneWord x →
        cutAtBlank (x ++ " " ++ y).toList = some (x.toList, y.toList) := by
      intro x y hx
      rw [String.toList_append, String.toList_append, List.append_assoc]
      exact cutAtBlank_append hx (by decide) y.toList
    have hsame := (hcut ha).symm.trans ((congrArg (fun t => cutAtBlank t.toList) heq).trans
      (hcut hc))
    rw [Option.some_inj, Prod.mk.injEq, String.toList_inj, String.toList_inj] at hsame
    exact hsame
  · rintro ⟨rfl, rfl⟩
    rfl

end Text

namespace Name

open Text (OneWord)

/-- The names that chat comes from: those that clients may take, and those kept for the relay. -/
def Signs (limit : Nat) (name : String) : Prop :=
  check .nickname limit name = .ok () ∨ name ∈ reserved

instance (limit : Nat) (name : String) : Decidable (Signs limit name) :=
  inferInstanceAs (Decidable (_ ∨ _))

theorem oneWord_of_check {kind : Kind} {limit : Nat} {name : String}
    (h : check kind limit name = .ok ()) : OneWord name :=
  Text.oneWord_of_no_blank (flaw?_eq_none_iff.1 (check_eq_ok_iff.1 h)).2.1

theorem Signs.oneWord {limit : Nat} {name : String} (h : Signs limit name) : OneWord name := by
  rcases h with hcheck | hreserved
  · exact oneWord_of_check hcheck
  · exact (by decide : ∀ name ∈ reserved, OneWord name) name hreserved

end Name

namespace Message

open Text (OneWord word_inj oneWord_append)

def Signed (limit : Nat) : Message → Prop
  | chat sender _ | privateFrom sender _ => Name.Signs limit sender
  | roomChat sender room _ => Name.Signs limit sender ∧ Name.check .room limit room = .ok ()
  | _ => False

/-- Chat in the open and chat in a room that read the same: who spoke in the room bears the name of
the other with the end of the brackets behind it. -/
def Mistakable : Message → Message → Prop
  | chat sender body, roomChat sender' room body' =>
    sender' = sender ++ "]:" ∧ body = "@ " ++ room ++ "]: " ++ body'
  | _, _ => False

variable {sender sender' room room' body body' : String}

theorem brackets_end : "]: " = "]:" ++ " " := by decide

theorem text_chat (sender body : String) :
    (chat sender body).text = "[" ++ sender ++ "]:" ++ " " ++ body := by
  show "[" ++ sender ++ "]: " ++ body = _
  rw [brackets_end]
  simp only [String.append_assoc]

theorem text_roomChat (sender room body : String) : (roomChat sender room body).text =
    "[" ++ sender ++ " " ++ ("@" ++ " " ++ (room ++ "]:" ++ " " ++ body)) := by
  have hat : " @ " = " " ++ "@" ++ " " := by decide
  show "[" ++ sender ++ " @ " ++ room ++ "]: " ++ body = _
  rw [brackets_end, hat]
  simp only [String.append_assoc]

theorem text_privateFrom (sender body : String) : (privateFrom sender body).text =
    "[PM" ++ " " ++ ("from" ++ " " ++ (sender ++ "]:" ++ " " ++ body)) := by
  have hfront : "[PM from " = "[PM" ++ " " ++ "from" ++ " " := by decide
  show "[PM from " ++ sender ++ "]: " ++ body = _
  rw [brackets_end, hfront]
  simp only [String.append_assoc]

theorem oneWord_opened (h : OneWord sender) : OneWord ("[" ++ sender) :=
  oneWord_append.2 ⟨by decide, h⟩

theorem oneWord_closed (h : OneWord sender) : OneWord (sender ++ "]:") :=
  oneWord_append.2 ⟨h, by decide⟩

theorem oneWord_bracketed (h : OneWord sender) : OneWord ("[" ++ sender ++ "]:") :=
  oneWord_closed (oneWord_opened h)

theorem closed_inj (h : OneWord sender) (h' : OneWord sender') :
    sender ++ "]:" ++ " " ++ body = sender' ++ "]:" ++ " " ++ body' ↔
      sender = sender' ∧ body = body' := by
  rw [word_inj (oneWord_closed h) (oneWord_closed h'), String.append_left_inj]

theorem text_chat_inj (h : OneWord sender) (h' : OneWord sender') :
    (chat sender body).text = (chat sender' body').text ↔ sender = sender' ∧ body = body' := by
  rw [text_chat, text_chat, closed_inj (oneWord_opened h) (oneWord_opened h'),
    String.append_right_inj]

theorem text_roomChat_inj (h : OneWord sender) (h' : OneWord sender') (hr : OneWord room)
    (hr' : OneWord room') :
    (roomChat sender room body).text = (roomChat sender' room' body').text ↔
      sender = sender' ∧ room = room' ∧ body = body' := by
  have hat : OneWord "@" := by decide
  rw [text_roomChat, text_roomChat, word_inj (oneWord_opened h) (oneWord_opened h'),
    word_inj hat hat, closed_inj hr hr', String.append_right_inj]
  simp only [true_and]

theorem text_privateFrom_inj (h : OneWord sender) (h' : OneWord sender') :
    (privateFrom sender body).text = (privateFrom sender' body').text ↔
      sender = sender' ∧ body = body' := by
  have hfront : OneWord "[PM" := by decide
  have hfrom : OneWord "from" := by decide
  rw [text_privateFrom, text_privateFrom, word_inj hfront hfront, word_inj hfrom hfrom,
    closed_inj h h']
  simp only [true_and]

/-! ### Across the kinds of chat -/

theorem text_chat_eq_roomChat (h : OneWord sender) (h' : OneWord sender') :
    (chat sender body).text = (roomChat sender' room body').text ↔
      Mistakable (chat sender body) (roomChat sender' room body') := by
  have hat : "@ " = "@" ++ " " := by decide
  rw [text_chat, text_roomChat, word_inj (oneWord_bracketed h) (oneWord_opened h'),
    String.append_assoc, String.append_right_inj, Mistakable, brackets_end, hat]
  simp only [String.append_assoc, eq_comm]

theorem text_chat_ne_privateFrom (h : OneWord sender) :
    (chat sender body).text ≠ (privateFrom sender' body').text := by
  have hfront : OneWord "[PM" := by decide
  rw [text_chat, text_privateFrom]
  intro heq
  have hword := ((word_inj (oneWord_bracketed h) hfront).1 heq).1
  have hlast : ("[" ++ sender ++ "]:").toList.getLast? = "[PM".toList.getLast? := by rw [hword]
  have hend : "]:".toList.getLast? = some ':' := by decide
  rw [String.toList_append, List.getLast?_append, hend, Option.some_or] at hlast
  exact absurd hlast (by decide)

theorem text_roomChat_ne_privateFrom (h : OneWord sender) :
    (roomChat sender room body).text ≠ (privateFrom sender' body').text := by
  have hfront : OneWord "[PM" := by decide
  have hat : OneWord "@" := by decide
  have hfrom : OneWord "from" := by decide
  rw [text_roomChat, text_privateFrom]
  intro heq
  have hrest := ((word_inj (oneWord_opened h) hfront).1 heq).2
  exact absurd ((word_inj hat hfrom).1 hrest).1 (by decide)

/-- A line of chat tells who said what and where, unless it was said in a room by somebody whose
name ends like the brackets do, or looks so. -/
theorem text_eq_iff_of_signed {m m' : Message} {limit limit' : Nat} (hm : m.Signed limit)
    (hm' : m'.Signed limit') :
    m.text = m'.text ↔ m = m' ∨ Mistakable m m' ∨ Mistakable m' m := by
  cases m with
  | chat sender body =>
    have hs : OneWord sender := Name.Signs.oneWord hm
    cases m' with
    | chat sender' body' =>
      rw [text_chat_inj hs (Name.Signs.oneWord hm')]
      simp only [chat.injEq, Mistakable, or_false]
    | roomChat sender' room' body' =>
      rw [text_chat_eq_roomChat hs hm'.1.oneWord]
      simp only [reduceCtorEq, false_or, Mistakable, or_false]
    | privateFrom sender' body' =>
      simp only [text_chat_ne_privateFrom hs, reduceCtorEq, Mistakable, or_false]
    | _ => exact hm'.elim
  | roomChat sender room body =>
    have hs : OneWord sender := hm.1.oneWord
    have hr : OneWord room := Name.oneWord_of_check hm.2
    cases m' with
    | chat sender' body' =>
      rw [eq_comm, text_chat_eq_roomChat (Name.Signs.oneWord hm') hs]
      simp only [reduceCtorEq, false_or, Mistakable]
    | roomChat sender' room' body' =>
      rw [text_roomChat_inj hs hm'.1.oneWord hr (Name.oneWord_of_check hm'.2)]
      simp only [roomChat.injEq, Mistakable, or_false]
    | privateFrom sender' body' =>
      simp only [text_roomChat_ne_privateFrom hs, reduceCtorEq, Mistakable, or_false]
    | _ => exact hm'.elim
  | privateFrom sender body =>
    have hs : OneWord sender := Name.Signs.oneWord hm
    cases m' with
    | chat sender' body' =>
      have hne : (privateFrom sender body).text ≠ (chat sender' body').text :=
        (text_chat_ne_privateFrom (Name.Signs.oneWord hm')).symm
      simp only [hne, reduceCtorEq, Mistakable, or_false]
    | roomChat sender' room' body' =>
      have hne : (privateFrom sender body).text ≠ (roomChat sender' room' body').text :=
        (text_roomChat_ne_privateFrom hm'.1.oneWord).symm
      simp only [hne, reduceCtorEq, Mistakable, or_false]
    | privateFrom sender' body' =>
      rw [text_privateFrom_inj hs (Name.Signs.oneWord hm')]
      simp only [privateFrom.injEq, Mistakable, or_false]
    | _ => exact hm'.elim
  | _ => exact hm.elim

theorem text_eq_iff_of_brackets :
    (chat "]:" "@ r]: hi").Signed 20 ∧ (roomChat "]:]:" "r" "hi").Signed 20 ∧
      ((chat "]:" "@ r]: hi").text = (roomChat "]:]:" "r" "hi").text ↔
        chat "]:" "@ r]: hi" = roomChat "]:]:" "r" "hi" ∨
          Mistakable (chat "]:" "@ r]: hi") (roomChat "]:]:" "r" "hi") ∨
          Mistakable (roomChat "]:]:" "r" "hi") (chat "]:" "@ r]: hi")) :=
  have hchat : (chat "]:" "@ r]: hi").Signed 20 := .inl (by decide)
  have hroom : (roomChat "]:]:" "r" "hi").Signed 20 := ⟨.inl (by decide), by decide⟩
  ⟨hchat, hroom, text_eq_iff_of_signed hchat hroom⟩

/-- Under a nickname that passes its check, chat in a room reads like chat of the relay itself. -/
theorem text_eq_of_mistaken :
    "Server" ∈ Name.reserved ∧ Name.check .nickname 20 "Server]:" = .ok () ∧
      Name.check .room 20 "r" = .ok () ∧ OneLine "@ r]: hi" ∧ OneLine "hi" ∧
      (chat "Server" "@ r]: hi").text = (roomChat "Server]:" "r" "hi").text ∧
      chat "Server" "@ r]: hi" ≠ roomChat "Server]:" "r" "hi" ∧ "Server" ≠ "Server]:" :=
  ⟨by decide, by decide, by decide, oneLine_ofList (by decide), oneLine_ofList (by decide),
    by decide, by decide, by decide⟩

end Message
end ChatRelay

import ChatRelay.Proofs.Language.Words
import Mathlib.Algebra.Group.Nat.Defs

/-! The language of commands: what a unit of input is read as, said by the parts that it consists
of, and a unit for every command that is read as that command. -/

namespace ChatRelay

open Text (isBlank isLineEnding Snug Pads Spells)

def Opens (input : List Char) (c : Char) : Prop :=
  ¬ isBlank c ∧ ∃ front rest, input = front ++ c :: rest ∧ ∀ b ∈ front, isBlank b

/-- The first word of a text, which begins with a slash, and what else it says. The word goes up to
the first blank after it, or to the end. -/
structure Calls (input word args : List Char) : Prop where
  slash : word.head? = some '/'
  unbroken : ∀ c ∈ word, ¬ isBlank c
  snug : Snug args
  parts : ∃ front rest, input = front ++ word ++ rest ∧ (∀ c ∈ front, isBlank c) ∧
    (∀ c, rest.head? = some c → isBlank c) ∧ Pads args rest

theorem Calls.exists_slash {input word args : List Char} (hc : Calls input word args) :
    ∃ tail, word = '/' :: tail := by
  have slash := hc.slash
  cases word with
  | nil => cases slash
  | cons d tail => exact ⟨tail, by rw [Option.some.inj slash]⟩

namespace Command

def words : List String :=
  ["/nick", "/join", "/leave", "/users", "/list", "/help", "/quit", "/pm", "/history"]

/-- What a unit of input means. -/
inductive Reads (input : List Char) : Command → Prop
  | empty (blank : ∀ c ∈ input, isBlank c) : Reads input empty
  | chat {c : Char} {body ending : List Char} (opens : Opens input c) (plain : c ≠ '/')
      (parts : input = body ++ ending) (dropped : ∀ e ∈ ending, isLineEnding e)
      (kept : ∀ e, body.getLast? = some e → ¬ isLineEnding e) :
      Reads input (chat (String.ofList body))
  | nick {args : List Char} (called : Calls input "/nick".toList args) :
      Reads input (nick (String.ofList args))
  | join {args : List Char} (called : Calls input "/join".toList args) :
      Reads input (join (String.ofList args))
  | leave {args : List Char} (called : Calls input "/leave".toList args) : Reads input leave
  | users {args : List Char} (called : Calls input "/users".toList args) : Reads input users
  | list {args : List Char} (called : Calls input "/list".toList args) : Reads input users
  | help {args : List Char} (called : Calls input "/help".toList args) : Reads input help
  | quit {args : List Char} (called : Calls input "/quit".toList args) : Reads input quit
  | pm {args target gap body : List Char} (called : Calls input "/pm".toList args)
      (parts : args = target ++ gap ++ body) (unbroken : ∀ c ∈ target, ¬ isBlank c)
      (apart : gap ≠ []) (blank : ∀ c ∈ gap, isBlank c) (target_ne : target ≠ [])
      (body_ne : body ≠ []) (snug : Snug body) :
      Reads input (pm (String.ofList target) (String.ofList body))
  | pmUsage {args : List Char} (called : Calls input "/pm".toList args)
      (unbroken : ∀ c ∈ args, ¬ isBlank c) : Reads input (usage .pm)
  | recent (called : Calls input "/history".toList []) : Reads input (history 20)
  | history {args : List Char} {n : Nat} (called : Calls input "/history".toList args)
      (count : Spells args n) (positive : 1 ≤ n) (small : n ≤ 2 ^ 64 - 1) :
      Reads input (history (min 100 n))
  | historyUsage {args : List Char} (called : Calls input "/history".toList args)
      (args_ne : args ≠ []) (none : ∀ n, Spells args n → ¬ (1 ≤ n ∧ n ≤ 2 ^ 64 - 1)) :
      Reads input (usage .history)
  | unknown {word args : List Char} (called : Calls input word args)
      (strange : String.ofList word ∉ words) : Reads input (unknown (String.ofList word))

def WellFormed : Command → Prop
  | nick name | join name => Snug name.toList
  | pm target body => target ≠ "" ∧ (∀ c ∈ target.toList, ¬ isBlank c) ∧ body ≠ "" ∧
      Snug body.toList
  | history limit => 1 ≤ limit ∧ limit ≤ 100
  | chat body => (∃ c, Opens body.toList c ∧ c ≠ '/') ∧
      ∀ e, body.toList.getLast? = some e → ¬ isLineEnding e
  | unknown word => word.toList.head? = some '/' ∧ (∀ c ∈ word.toList, ¬ isBlank c) ∧ word ∉ words
  | leave | users | help | quit | usage _ | empty => True

def print : Command → String
  | nick name => "/nick " ++ name
  | join room => "/join " ++ room
  | leave => "/leave"
  | users => "/users"
  | help => "/help"
  | quit => "/quit"
  | pm target body => "/pm " ++ target ++ " " ++ body
  | history limit => "/history " ++ toString limit
  | chat body => body
  | usage .pm => "/pm"
  | usage .history => "/history 0"
  | unknown word => word
  | empty => ""

/-! ### Calls -/

variable {input word args : List Char} {c : Command}

theorem parse_of_blank {unit : String} (h : Text.trim unit.toList = []) : parse unit = empty := by
  rw [← Text.trim_dropLineEndings] at h
  simp only [parse, h]

theorem parse_of_word {unit : String} {tail : List Char} (h : Text.trim unit.toList = '/' :: tail)
    (hcut : Text.cutAtBlank ('/' :: tail) = none) :
    parse unit = ofWord (String.ofList ('/' :: tail)) [] := by
  rw [← Text.trim_dropLineEndings] at h
  simp only [parse, h, hcut]

theorem parse_of_cut {unit : String} {tail rest : List Char}
    (h : Text.trim unit.toList = '/' :: tail)
    (hcut : Text.cutAtBlank ('/' :: tail) = some (word, rest)) :
    parse unit = ofWord (String.ofList word) (Text.trim rest) := by
  rw [← Text.trim_dropLineEndings] at h
  simp only [parse, h, hcut]

theorem parse_of_plain {unit : String} {first : Char} {tail : List Char}
    (h : Text.trim unit.toList = first :: tail) (hfirst : first ≠ '/') :
    parse unit = chat (String.ofList (Text.dropLineEndings unit.toList)) := by
  rw [← Text.trim_dropLineEndings] at h
  unfold parse
  simp only [h]
  split
  · next hnil => cases hnil
  · next hslash => exact absurd (List.cons.inj hslash).1 hfirst
  · rfl

theorem parse_of_call_alone {unit : String} (hc : Calls unit.toList word []) :
    parse unit = ofWord (String.ofList word) [] := by
  obtain ⟨tail, rfl⟩ := hc.exists_slash
  obtain ⟨-, unbroken, -, front, rest, hunit, hfront, -, gap, back, hrest, hblank, hback⟩ := hc
  have hblanks : ∀ d ∈ rest, isBlank d := by
    intro d hd
    rw [hrest, List.append_nil] at hd
    exact (List.mem_append.1 hd).elim (hblank d) (hback d)
  have htrim : Text.trim unit.toList = '/' :: tail :=
    Text.trim_eq_iff.2 ⟨Text.snug_of_unbroken unbroken, front, rest, hunit, hfront, hblanks⟩
  exact parse_of_word htrim (Text.cutAtBlank_eq_none_iff.2 unbroken)

theorem parse_of_call_with {unit : String} (hc : Calls unit.toList word args) (hne : args ≠ []) :
    parse unit = ofWord (String.ofList word) args := by
  obtain ⟨tail, rfl⟩ := hc.exists_slash
  obtain ⟨-, unbroken, snug, front, rest, hunit, hfront, hgap, hpads⟩ := hc
  obtain ⟨gap, back, hrest, hblank, hback⟩ := hpads
  -- what else is said begins with no blank, so that there is one before it
  obtain ⟨g, gs, rfl⟩ : ∃ g gs, gap = g :: gs := by
    cases gap with
    | nil =>
      obtain ⟨a, as, rfl⟩ := List.exists_cons_of_ne_nil hne
      have hhead : rest.head? = some a := by
        rw [hrest]
        rfl
      exact absurd (hgap a hhead) (snug.first a rfl)
    | cons g gs => exact ⟨g, gs, rfl⟩
  have hlast : ('/' :: tail ++ g :: (gs ++ args)).getLast? = args.getLast? := by
    rw [← List.cons_append, ← List.append_assoc, List.getLast?_append_of_ne_nil _ hne]
  have hsnug : Snug ('/' :: tail ++ g :: (gs ++ args)) := by
    refine ⟨fun d hd => ?_, fun d hd => snug.last d (hlast ▸ hd)⟩
    rw [← Option.some.inj hd]
    exact unbroken '/' List.mem_cons_self
  have hparts : unit.toList = front ++ ('/' :: tail ++ g :: (gs ++ args)) ++ back := by
    rw [hunit, hrest]
    simp only [List.append_assoc, List.cons_append]
  have htrim := Text.trim_eq_iff.2 ⟨hsnug, front, back, hparts, hfront, hback⟩
  have hcut : Text.cutAtBlank ('/' :: tail ++ g :: (gs ++ args)) = some ('/' :: tail, gs ++ args) :=
    Text.cutAtBlank_eq_some_iff.2 ⟨unbroken, g, hblank g List.mem_cons_self, rfl⟩
  have hcalled := parse_of_cut htrim hcut
  rwa [Text.trim_append (fun d hd => hblank d (List.mem_cons_of_mem g hd)) snug] at hcalled

theorem parse_of_calls {unit : String} (hc : Calls unit.toList word args) :
    parse unit = ofWord (String.ofList word) args := by
  by_cases hne : args = []
  · subst hne
    exact parse_of_call_alone hc
  · exact parse_of_call_with hc hne

theorem exists_calls (h : (Text.trim input).head? = some '/') :
    ∃ word args, Calls input word args := by
  obtain ⟨-, front, back, hinput, hfront, hback⟩ := Text.trim_parts input
  cases hcut : Text.cutAtBlank (Text.trim input) with
  | none =>
    refine ⟨Text.trim input, [], h, Text.cutAtBlank_eq_none_iff.1 hcut, ⟨nofun, nofun⟩, front, back,
      hinput, hfront, fun c hc => hback c (List.mem_of_head? hc), [], back, rfl, nofun, hback⟩
  | some cut =>
    obtain ⟨word, rest⟩ := cut
    obtain ⟨hword, b, hb, hparts⟩ := Text.cutAtBlank_eq_some_iff.1 hcut
    obtain ⟨hargs, gap, tail, hrest, hgap, htail⟩ := Text.trim_parts rest
    have hslash : word.head? = some '/' := by
      rw [hparts] at h
      cases word with
      -- a slash is no blank
      | nil =>
        rw [Option.some.inj h] at hb
        exact absurd hb (by decide)
      | cons d word => exact h
    refine ⟨word, Text.trim rest, hslash, hword, hargs, front, b :: rest ++ back, ?_, hfront, ?_,
      b :: gap, tail ++ back, ?_, List.forall_mem_cons.2 ⟨hb, hgap⟩, ?_⟩
    · rw [hinput, hparts]
      simp only [List.append_assoc, List.cons_append]
    · rintro c hc
      rw [← Option.some.inj hc]
      exact hb
    · conv_lhs => rw [hrest]
      simp only [List.append_assoc, List.cons_append]
    · intro c hc
      exact (List.mem_append.1 hc).elim (htail c) (hback c)

theorem ofWord_of_strange {word : String} (h : word ∉ words) : ofWord word args = unknown word := by
  unfold ofWord
  split
  case h_10 => rfl
  all_goals exact absurd (by decide) h

/-! ### Arguments -/

theorem reads_ofPm (hc : Calls input "/pm".toList args) : Reads input (ofPm args) := by
  unfold ofPm
  cases hcut : Text.cutAtBlank args with
  | none => exact .pmUsage hc (Text.cutAtBlank_eq_none_iff.1 hcut)
  | some cut =>
    obtain ⟨target, rest⟩ := cut
    obtain ⟨hword, b, hb, hparts⟩ := Text.cutAtBlank_eq_some_iff.1 hcut
    obtain ⟨hbody, gap, tail, hrest, hgap, htail⟩ := Text.trim_parts rest
    -- no blank is at the end of what else is said
    have hlast : ∀ d, (b :: gap ++ Text.trim rest ++ tail).getLast? = some d → ¬ isBlank d := by
      intro d hd
      apply hc.snug.last d
      have hargs : args = target ++ (b :: gap ++ Text.trim rest ++ tail) := by
        rw [hparts, List.cons_append, List.cons_append, ← hrest]
      rw [hargs, List.getLast?_append, hd, Option.some_or]
    have htail_nil : tail = [] := by
      rcases List.eq_nil_or_concat' tail with hnil | ⟨front, d, rfl⟩
      · exact hnil
      · refine absurd (htail d (by simp)) (hlast d ?_)
        rw [← List.append_assoc, List.getLast?_concat]
    subst htail_nil
    rw [List.append_nil] at hrest hlast
    have hbody_ne : Text.trim rest ≠ [] := by
      intro hnil
      rw [hnil, List.append_nil] at hlast
      have hend : ∃ d, (b :: gap).getLast? = some d := ⟨_, List.getLast?_eq_some_getLast (by simp)⟩
      obtain ⟨d, hd⟩ := hend
      rcases List.mem_cons.1 (List.mem_of_getLast? hd) with rfl | hmem
      · exact hlast d hd hb
      · exact hlast d hd (hgap d hmem)
    have htarget_ne : target ≠ [] := by
      rintro rfl
      exact hc.snug.first b (by rw [hparts]; rfl) hb
    have hempty : (Text.trim rest).isEmpty = false := List.isEmpty_eq_false_iff.2 hbody_ne
    dsimp only
    rw [hempty, if_neg Bool.false_ne_true]
    refine .pm hc ?_ hword (List.cons_ne_nil b gap) (List.forall_mem_cons.2 ⟨hb, hgap⟩) htarget_ne
      hbody_ne hbody
    rw [hparts, List.append_assoc, List.cons_append, ← hrest]

theorem ofPm_of_parts {target gap body : List Char} (hargs : args = target ++ gap ++ body)
    (unbroken : ∀ c ∈ target, ¬ isBlank c) (apart : gap ≠ []) (blank : ∀ c ∈ gap, isBlank c)
    (body_ne : body ≠ []) (snug : Snug body) :
    ofPm args = pm (String.ofList target) (String.ofList body) := by
  obtain ⟨g, gs, rfl⟩ := List.exists_cons_of_ne_nil apart
  have hcut : Text.cutAtBlank args = some (target, gs ++ body) := by
    refine Text.cutAtBlank_eq_some_iff.2 ⟨unbroken, g, blank g List.mem_cons_self, ?_⟩
    rw [hargs, List.append_assoc, List.cons_append]
  have htrim : Text.trim (gs ++ body) = body :=
    Text.trim_append (fun d hd => blank d (List.mem_cons_of_mem g hd)) snug
  have hempty : body.isEmpty = false := List.isEmpty_eq_false_iff.2 body_ne
  unfold ofPm
  rw [hcut]
  dsimp only
  rw [htrim, hempty, if_neg Bool.false_ne_true]

theorem countBound_eq : Text.countBound = 2 ^ 64 := rfl

theorem ofHistory_of_spells {n : Nat} (count : Spells args n) (positive : 1 ≤ n)
    (small : n ≤ 2 ^ 64 - 1) : ofHistory args = history (min 100 n) := by
  have hempty : args.isEmpty = false := List.isEmpty_eq_false_iff.2 count.ne_nil
  have hcount : Text.count? Text.countBound args = some n := by
    refine Text.count?_eq_some_iff.2 ⟨count, ?_⟩
    rw [countBound_eq]
    omega
  obtain ⟨m, rfl⟩ := Nat.exists_eq_add_of_le' positive
  unfold ofHistory
  rw [hempty, if_neg Bool.false_ne_true, hcount]
  exact congrArg history (Nat.min_comm (m + 1) 100)

theorem ofHistory_of_not_spells (args_ne : args ≠ [])
    (none : ∀ n, Spells args n → ¬ (1 ≤ n ∧ n ≤ 2 ^ 64 - 1)) :
    ofHistory args = usage .history := by
  have hempty : args.isEmpty = false := List.isEmpty_eq_false_iff.2 args_ne
  unfold ofHistory
  rw [hempty, if_neg Bool.false_ne_true]
  cases hcount : Text.count? Text.countBound args with
  | none => rfl
  | some n =>
    obtain ⟨hspells, hlt⟩ := Text.count?_eq_some_iff.1 hcount
    rw [countBound_eq] at hlt
    have hzero : n = 0 := by
      have hnot := none n hspells
      omega
    subst hzero
    rfl

theorem reads_ofHistory (hc : Calls input "/history".toList args) :
    Reads input (ofHistory args) := by
  by_cases hne : args = []
  · subst hne
    exact .recent hc
  · by_cases hcount : ∃ n, Spells args n ∧ 1 ≤ n ∧ n ≤ 2 ^ 64 - 1
    · obtain ⟨n, count, positive, small⟩ := hcount
      rw [ofHistory_of_spells count positive small]
      exact .history hc count positive small
    · have none : ∀ n, Spells args n → ¬ (1 ≤ n ∧ n ≤ 2 ^ 64 - 1) :=
        fun n count bounds => hcount ⟨n, count, bounds⟩
      rw [ofHistory_of_not_spells hne none]
      exact .historyUsage hc hne none

/-! ### What is read -/

theorem reads_of_calls (hc : Calls input word args) :
    Reads input (ofWord (String.ofList word) args) := by
  have named : ∀ w, String.ofList word = w → Calls input w.toList args := by
    rintro w rfl
    rwa [String.toList_ofList]
  by_cases strange : String.ofList word ∈ words
  · simp only [words, List.mem_cons, List.not_mem_nil, or_false] at strange
    rcases strange with h | h | h | h | h | h | h | h | h
    all_goals
      have hcalled := named _ h
      rw [h]
    · exact .nick hcalled
    · exact .join hcalled
    · exact .leave hcalled
    · exact .users hcalled
    · exact .list hcalled
    · exact .help hcalled
    · exact .quit hcalled
    · exact reads_ofPm hcalled
    · exact reads_ofHistory hcalled
  · rw [ofWord_of_strange strange]
    exact .unknown hc strange

theorem opens_of_trim {first : Char} {tail : List Char} (h : Text.trim input = first :: tail) :
    Opens input first := by
  obtain ⟨hsnug, front, back, hinput, hfront, -⟩ := Text.trim_eq_iff.1 h
  refine ⟨hsnug.first first rfl, front, tail ++ back, ?_, hfront⟩
  rw [hinput, List.append_assoc, List.cons_append]

theorem exists_trim_of_opens {first : Char} (h : Opens input first) :
    ∃ tail, Text.trim input = first :: tail := by
  obtain ⟨hfirst, front, rest, hinput, hfront⟩ := h
  have hdrop : input.dropWhile isBlank = first :: rest := by
    rw [hinput, List.dropWhile_append_of_pos hfront, List.dropWhile_cons_of_neg hfirst]
  have hkeep : Text.trim input = Text.dropEndWhile isBlank (first :: rest) := by
    rw [Text.trim, hdrop]
  obtain ⟨-, back, hparts, hback⟩ := Text.dropEndWhile_parts isBlank (first :: rest)
  cases hcore : Text.dropEndWhile isBlank (first :: rest) with
  | nil =>
    rw [hcore, List.nil_append] at hparts
    exact absurd (hback first (hparts ▸ List.mem_cons_self)) hfirst
  | cons d tail =>
    rw [hcore] at hparts hkeep
    exact ⟨tail, by rw [hkeep, (List.cons.inj hparts).1]⟩

theorem reads_parse (unit : String) : Reads unit.toList (parse unit) := by
  cases htrim : Text.trim unit.toList with
  | nil =>
    rw [parse_of_blank htrim]
    exact .empty (Text.trim_eq_nil_iff.1 htrim)
  | cons first tail =>
    by_cases hfirst : first = '/'
    · have hslash : (Text.trim unit.toList).head? = some '/' := by
        rw [htrim, hfirst]
        rfl
      obtain ⟨word, args, hc⟩ := exists_calls hslash
      rw [parse_of_calls hc]
      exact reads_of_calls hc
    · obtain ⟨hkept, ending, hparts, hdropped⟩ := Text.dropEndWhile_parts isLineEnding unit.toList
      rw [parse_of_plain htrim hfirst]
      exact .chat (opens_of_trim htrim) hfirst hparts hdropped hkept

theorem parse_eq_of_reads {unit : String} (h : Reads unit.toList c) : parse unit = c := by
  cases h with
  | empty blank => exact parse_of_blank (Text.trim_eq_nil_iff.2 blank)
  | chat opens plain parts dropped kept =>
    obtain ⟨tail, htrim⟩ := exists_trim_of_opens opens
    rw [parse_of_plain htrim plain, Text.dropLineEndings,
      Text.dropEndWhile_eq_iff.2 ⟨kept, _, parts, dropped⟩]
  | nick hc | join hc | leave hc | users hc | list hc | help hc | quit hc =>
    rw [parse_of_calls hc]
    rfl
  | pm hc parts unbroken apart blank target_ne body_ne snug =>
    rw [parse_of_calls hc]
    exact ofPm_of_parts parts unbroken apart blank body_ne snug
  | pmUsage hc unbroken =>
    rw [parse_of_calls hc]
    show ofPm _ = _
    rw [ofPm, Text.cutAtBlank_eq_none_iff.2 unbroken]
  | recent hc =>
    rw [parse_of_calls hc]
    rfl
  | @history args n hc count positive small =>
    rw [parse_of_calls hc]
    exact ofHistory_of_spells count positive small
  | historyUsage hc args_ne none =>
    rw [parse_of_calls hc]
    exact ofHistory_of_not_spells args_ne none
  | unknown hc strange =>
    rw [parse_of_calls hc, ofWord_of_strange strange]

/-! ### What is printed -/

theorem wellFormed_of_reads (h : Reads input c) : c.WellFormed := by
  cases h with
  | empty | leave | users | list | help | quit | pmUsage | historyUsage => trivial
  | nick hc | join hc =>
    show Snug _
    rw [String.toList_ofList]
    exact hc.snug
  | @chat first body ending opens plain parts dropped kept =>
    show (∃ c, Opens (String.ofList body).toList c ∧ c ≠ '/') ∧ _
    rw [String.toList_ofList]
    -- what is dropped is blank, and so not the first character
    obtain ⟨tail, htrim⟩ := exists_trim_of_opens opens
    have hbody : Text.dropLineEndings input = body :=
      Text.dropEndWhile_eq_iff.2 ⟨kept, ending, parts, dropped⟩
    rw [← Text.trim_dropLineEndings, hbody] at htrim
    exact ⟨⟨first, opens_of_trim htrim, plain⟩, kept⟩
  | @pm args target gap body hc parts unbroken apart blank target_ne body_ne snug =>
    simp only [WellFormed, String.toList_ofList]
    exact ⟨mt String.ofList_eq_empty_iff.1 target_ne, unbroken,
      mt String.ofList_eq_empty_iff.1 body_ne, snug⟩
  | recent => exact ⟨by decide, by decide⟩
  | history hc count positive small => exact ⟨by omega, by omega⟩
  | unknown hc strange =>
    simp only [WellFormed, String.toList_ofList]
    exact ⟨hc.slash, hc.unbroken, strange⟩

theorem calls_alone (slash : word.head? = some '/') (unbroken : ∀ c ∈ word, ¬ isBlank c) :
    Calls word word [] :=
  ⟨slash, unbroken, ⟨nofun, nofun⟩, [], [], by simp, nofun, nofun, [], [], rfl, nofun, nofun⟩

theorem calls_with (parts : input = word ++ ' ' :: args) (slash : word.head? = some '/')
    (unbroken : ∀ c ∈ word, ¬ isBlank c) (snug : Snug args) : Calls input word args := by
  have hblank : isBlank ' ' := by decide
  refine ⟨slash, unbroken, snug, [], ' ' :: args, parts, nofun, ?_, [' '], [], by simp, ?_, nofun⟩
  · rintro c hc
    rwa [← Option.some.inj hc]
  · rintro c hc
    rwa [List.mem_singleton.1 hc]

theorem calls_print {rest : String} (call : String) (parts : call.toList = word ++ [' '])
    (slash : word.head? = some '/') (unbroken : word.all (!isBlank ·)) (snug : Snug rest.toList) :
    Calls (call ++ rest).toList word rest.toList := by
  have hparts : (call ++ rest).toList = word ++ ' ' :: rest.toList := by
    rw [String.toList_append, parts, List.append_assoc, List.singleton_append]
  exact calls_with hparts slash (Text.unbroken_of_all unbroken) snug

theorem reads_print_pm {target body : String} (h : (pm target body).WellFormed) :
    Reads (print (pm target body)).toList (pm target body) := by
  obtain ⟨target_ne, unbroken, body_ne, snug⟩ := h
  have target_ne' := mt String.toList_eq_nil_iff.1 target_ne
  have body_ne' := mt String.toList_eq_nil_iff.1 body_ne
  have hargs : (target ++ (" " ++ body)).toList = target.toList ++ [' '] ++ body.toList := by
    rw [String.toList_append, String.toList_append, List.append_assoc]
    rfl
  have hsnug : Snug (target ++ (" " ++ body)).toList := by
    rw [hargs]
    exact Text.snug_append target_ne' unbroken body_ne' snug
  have hblank : ∀ c ∈ [' '], isBlank c := List.forall_mem_singleton.2 (by decide)
  have hreads := Reads.pm (calls_print "/pm " rfl rfl (by decide) hsnug) hargs unbroken
    (List.cons_ne_nil ' ' []) hblank target_ne' body_ne' snug
  rw [String.ofList_toList, String.ofList_toList] at hreads
  rwa [print, String.append_assoc, String.append_assoc]

theorem reads_print (h : c.WellFormed) : Reads c.print.toList c := by
  cases c with
  | nick name =>
    have hreads := Reads.nick (calls_print "/nick " rfl rfl (by decide) h)
    rwa [String.ofList_toList] at hreads
  | join room =>
    have hreads := Reads.join (calls_print "/join " rfl rfl (by decide) h)
    rwa [String.ofList_toList] at hreads
  | leave => exact .leave (calls_alone rfl (Text.unbroken_of_all (by decide)))
  | users => exact .users (calls_alone rfl (Text.unbroken_of_all (by decide)))
  | help => exact .help (calls_alone rfl (Text.unbroken_of_all (by decide)))
  | quit => exact .quit (calls_alone rfl (Text.unbroken_of_all (by decide)))
  | pm target body => exact reads_print_pm h
  | history limit =>
    obtain ⟨positive, small⟩ := h
    have count := Text.spells_repr limit
    have hsnug := Text.snug_of_unbroken count.unbroken
    have hreads := Reads.history (calls_print "/history " rfl rfl (by decide) hsnug) count positive
      (by omega)
    rwa [Nat.min_eq_right small] at hreads
  | chat body =>
    obtain ⟨⟨first, opens, plain⟩, kept⟩ := h
    have hreads := Reads.chat opens plain (List.append_nil _).symm nofun kept
    rwa [String.ofList_toList] at hreads
  | usage of =>
    cases of with
    | pm => exact .pmUsage (calls_alone rfl (Text.unbroken_of_all (by decide))) nofun
    | history =>
      have count : Spells ['0'] 0 := Text.spells_repr 0
      have hcalls : Calls "/history 0".toList "/history".toList ['0'] :=
        calls_with (by decide) rfl (Text.unbroken_of_all (by decide))
          (Text.snug_of_unbroken count.unbroken)
      refine .historyUsage hcalls (List.cons_ne_nil '0' []) fun n hn hbound => ?_
      have hzero : n = 0 := hn.unique count
      omega
  | unknown word =>
    obtain ⟨slash, unbroken, strange⟩ := h
    have hreads := Reads.unknown (calls_alone slash unbroken) (by rwa [String.ofList_toList])
    rwa [String.ofList_toList] at hreads
  | empty => exact .empty nofun

theorem parse_language :
    (∀ unit command, parse unit = command ↔ Reads unit.toList command) ∧
    (∀ unit, (parse unit).WellFormed) ∧
    ∀ command, command.WellFormed ↔ parse command.print = command := by
  have hread : ∀ unit command, parse unit = command ↔ Reads unit.toList command :=
    fun unit command => ⟨fun h => h ▸ reads_parse unit, parse_eq_of_reads⟩
  refine ⟨hread, fun unit => wellFormed_of_reads (reads_parse unit), fun command => ⟨fun h => ?_,
    fun h => ?_⟩⟩
  · exact parse_eq_of_reads (reads_print h)
  · exact wellFormed_of_reads ((hread _ _).1 h)

end Command
end ChatRelay

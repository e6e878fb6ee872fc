import ChatRelay.Proofs.OneLine.Text
import Mathlib.Data.List.DropRight

/-! How a text is trimmed and cut, and which numbers it spells, said without the functions that do
it: by the parts that the text consists of. -/

namespace ChatRelay.Text

variable {cs core word rest : List Char} {p : Char → Bool} {n : Nat}

/-! ### Trimming -/

structure Snug (cs : List Char) : Prop where
  first : ∀ c, cs.head? = some c → ¬ isBlank c
  last : ∀ c, cs.getLast? = some c → ¬ isBlank c

/-- The second text is the first one with blanks before and after it, as many as there are. -/
def Pads (core cs : List Char) : Prop :=
  ∃ front back, cs = front ++ core ++ back ∧ (∀ c ∈ front, isBlank c) ∧ ∀ c ∈ back, isBlank c

theorem dropEndWhile_append {back : List Char} (h : ∀ c ∈ back, p c) :
    dropEndWhile p (cs ++ back) = dropEndWhile p cs := by
  have hback : ∀ c ∈ back.reverse, p c := fun c hc => h c (List.mem_reverse.1 hc)
  rw [dropEndWhile, List.reverse_append, List.dropWhile_append_of_pos hback, dropEndWhile]

theorem dropEndWhile_eq_self (h : ∀ c, cs.getLast? = some c → ¬ p c) : dropEndWhile p cs = cs := by
  rcases List.eq_nil_or_concat' cs with rfl | ⟨front, c, rfl⟩
  · rfl
  · rw [dropEndWhile_concat, if_neg (h c List.getLast?_concat)]

theorem dropEndWhile_eq_iff : dropEndWhile p cs = core ↔
    (∀ c, core.getLast? = some c → ¬ p c) ∧ ∃ back, cs = core ++ back ∧ ∀ c ∈ back, p c := by
  constructor
  · rintro rfl
    refine ⟨fun c hc => ?_, cs.rtakeWhile p, ?_, fun c hc => List.mem_rtakeWhile_imp hc⟩
    · rw [getLast?_dropEndWhile hc]
      exact Bool.false_ne_true
    · exact List.rdropWhile_append_rtakeWhile.symm
  · rintro ⟨hlast, back, rfl, hback⟩
    rw [dropEndWhile_append hback, dropEndWhile_eq_self hlast]

theorem dropEndWhile_parts (p : Char → Bool) (cs : List Char) :
    (∀ c, (dropEndWhile p cs).getLast? = some c → ¬ p c) ∧
      ∃ back, cs = dropEndWhile p cs ++ back ∧ ∀ c ∈ back, p c := dropEndWhile_eq_iff.1 rfl

theorem dropWhile_eq_self (h : ∀ c, cs.head? = some c → ¬ p c) : cs.dropWhile p = cs := by
  cases cs with
  | nil => rfl
  | cons c cs => rw [List.dropWhile_cons_of_neg (h c rfl)]

theorem trim_eq_iff : trim cs = core ↔ Snug core ∧ Pads core cs := by
  constructor
  · intro ht
    obtain ⟨hlast, back, hcs, hback⟩ := dropEndWhile_eq_iff.1 ht
    refine ⟨⟨fun c hc => ?_, hlast⟩, cs.takeWhile isBlank, back, ?_, fun c hc => ?_, hback⟩
    · have hhead := List.head?_dropWhile_not isBlank cs
      have hfirst : (cs.dropWhile isBlank).head? = some c := by
        rw [hcs, List.head?_append, hc, Option.some_or]
      rw [hfirst] at hhead
      exact Bool.eq_false_iff.1 hhead
    · rw [List.append_assoc, ← hcs, List.takeWhile_append_dropWhile]
    · exact List.mem_takeWhile_imp hc
  · rintro ⟨hsnug, front, back, rfl, hfront, hback⟩
    have hdrop : (core ++ back).dropWhile isBlank = core ++ back ∨ core = [] := by
      cases core with
      | nil => exact .inr rfl
      | cons c core => exact .inl (dropWhile_eq_self fun d hd => hsnug.first d hd)
    rw [trim, List.append_assoc, List.dropWhile_append_of_pos hfront]
    rcases hdrop with hdrop | rfl
    · rw [hdrop, dropEndWhile_append hback, dropEndWhile_eq_self hsnug.last]
    · rw [List.nil_append, List.dropWhile_eq_nil_iff.2 hback, dropEndWhile_nil]

theorem trim_parts (cs : List Char) : Snug (trim cs) ∧ Pads (trim cs) cs := trim_eq_iff.1 rfl

theorem trim_append {front : List Char} (hfront : ∀ c ∈ front, isBlank c) (hsnug : Snug core) :
    trim (front ++ core) = core :=
  trim_eq_iff.2 ⟨hsnug, front, [], (List.append_nil _).symm, hfront,
    fun _ hc => absurd hc List.not_mem_nil⟩

theorem unbroken_of_all (h : cs.all (!isBlank ·)) : ∀ c ∈ cs, ¬ isBlank c := by
  intro c hc
  have hkept := List.all_eq_true.1 h c hc
  rwa [Bool.not_eq_true', ← Bool.not_eq_true] at hkept

theorem snug_of_unbroken (h : ∀ c ∈ cs, ¬ isBlank c) : Snug cs :=
  ⟨fun c hc => h c (List.mem_of_head? hc), fun c hc => h c (List.mem_of_getLast? hc)⟩

theorem snug_append {gap : List Char} (word_ne : word ≠ []) (hword : ∀ c ∈ word, ¬ isBlank c)
    (core_ne : core ≠ []) (hcore : Snug core) : Snug (word ++ gap ++ core) := by
  refine ⟨fun c hc => ?_, fun c hc => ?_⟩
  · rw [List.append_assoc, List.head?_append_of_ne_nil _ word_ne] at hc
    exact hword c (List.mem_of_head? hc)
  · rw [List.getLast?_append_of_ne_nil _ core_ne] at hc
    exact hcore.last c hc

theorem trim_eq_nil_iff : trim cs = [] ↔ ∀ c ∈ cs, isBlank c := by
  rw [trim_eq_iff]
  constructor
  · rintro ⟨-, front, back, rfl, hfront, hback⟩ c hc
    rw [List.append_nil] at hc
    exact (List.mem_append.1 hc).elim (hfront c) (hback c)
  · intro hall
    exact ⟨⟨nofun, nofun⟩, cs, [], by simp, hall, fun c hc => absurd hc List.not_mem_nil⟩

theorem isBlank_of_isLineEnding {c : Char} (h : isLineEnding c) : isBlank c := by
  rcases (Bool.or_eq_true _ _).mp h with h | h
  · rw [beq_iff_eq.1 h]
    decide
  · rw [beq_iff_eq.1 h]
    decide

theorem trim_dropLineEndings (cs : List Char) : trim (dropLineEndings cs) = trim cs := by
  obtain ⟨hsnug, front, back, hcs, hfront, hback⟩ := trim_parts (dropLineEndings cs)
  obtain ⟨-, ending, hwhole, hending⟩ := dropEndWhile_parts isLineEnding cs
  refine (trim_eq_iff.2 ⟨hsnug, front, back ++ ending, ?_, hfront, fun c hc => ?_⟩).symm
  · rw [← List.append_assoc, ← hcs]
    exact hwhole
  · rcases List.mem_append.1 hc with hc | hc
    · exact hback c hc
    · exact isBlank_of_isLineEnding (hending c hc)

/-! ### Cutting -/

theorem cutAtBlank_eq_some_iff : cutAtBlank cs = some (word, rest) ↔
    (∀ c ∈ word, ¬ isBlank c) ∧ ∃ b, isBlank b ∧ cs = word ++ b :: rest := by
  constructor
  · intro hcut
    refine ⟨no_blank_of_cutAtBlank hcut, ?_⟩
    induction cs generalizing word with
    | nil => cases hcut
    | cons c cs ih =>
      rw [cutAtBlank] at hcut
      split at hcut
      · next hc =>
        cases hcut
        exact ⟨c, hc, rfl⟩
      · obtain ⟨⟨word', rest'⟩, hcut', hw⟩ := Option.map_eq_some_iff.1 hcut
        cases hw
        obtain ⟨b, hb, rfl⟩ := ih hcut'
        exact ⟨b, hb, rfl⟩
  · rintro ⟨hword, b, hb, rfl⟩
    refine cutAtBlank_append (List.all_eq_true.2 fun c hc => ?_) hb rest
    rw [Bool.not_eq_true', ← Bool.not_eq_true]
    exact hword c hc

theorem cutAtBlank_eq_none_iff : cutAtBlank cs = none ↔ ∀ c ∈ cs, ¬ isBlank c := by
  refine ⟨no_blank_of_cutAtBlank_none, fun h => ?_⟩
  apply cutAtBlank_eq_none
  refine List.all_eq_true.2 fun c hc => ?_
  rw [Bool.not_eq_true', ← Bool.not_eq_true]
  exact h c hc

/-! ### Counts -/

/-- The number `n` in decimal digits, with a plus sign before them or without. -/
def Spells (cs : List Char) (n : Nat) : Prop :=
  ∃ digits, (cs = digits ∨ cs = '+' :: digits) ∧ digits ≠ [] ∧ (∀ c ∈ digits, c.isDigit) ∧
    Nat.ofDigitChars 10 digits 0 = n

theorem Spells.ne_nil (h : Spells cs n) : cs ≠ [] := by
  obtain ⟨digits, rfl | rfl, hne, -⟩ := h
  · exact hne
  · exact List.cons_ne_nil '+' digits

theorem not_isBlank_of_isDigit {c : Char} (h : c.isDigit) : ¬ isBlank c := by
  obtain ⟨hlow, hhigh⟩ := Char.isDigit_iff_toNat.1 h
  rw [show '0'.toNat = 48 from rfl] at hlow
  rw [show '9'.toNat = 57 from rfl] at hhigh
  simp only [isBlank, Bool.or_eq_true, Bool.and_eq_true, decide_eq_true_iff, beq_iff_eq]
  omega

theorem Spells.unbroken (h : Spells cs n) : ∀ c ∈ cs, ¬ isBlank c := by
  obtain ⟨digits, hsign, -, hall, -⟩ := h
  have hdigits : ∀ c ∈ digits, ¬ isBlank c := fun c hc => not_isBlank_of_isDigit (hall c hc)
  rcases hsign with rfl | rfl
  · exact hdigits
  · exact List.forall_mem_cons.2 ⟨by decide, hdigits⟩

theorem digits?_eq_some_iff {m : Nat} : digits? m cs = some n ↔
    (∀ c ∈ cs, c.isDigit) ∧ Nat.ofDigitChars 10 cs m = n := by
  induction cs generalizing m with
  | nil => simp [digits?, Nat.ofDigitChars]
  | cons c cs ih =>
    rw [digits?, digitValue?, Nat.ofDigitChars_cons, List.forall_mem_cons]
    by_cases hc : c.isDigit
    · rw [if_pos hc, Option.bind_some, ih, and_iff_right hc]
    · rw [if_neg hc, Option.bind_none]
      exact ⟨nofun, fun h => absurd h.1.1 hc⟩

theorem count?_eq_some_iff {bound : Nat} :
    count? bound cs = some n ↔ Spells cs n ∧ n < bound := by
  have hread : ∀ ds : List Char, (if ds.isEmpty then none else (digits? 0 ds).filter (· < bound)) =
      some n ↔ (ds ≠ [] ∧ (∀ c ∈ ds, c.isDigit) ∧ Nat.ofDigitChars 10 ds 0 = n) ∧ n < bound := by
    intro ds
    cases ds with
    | nil => exact ⟨nofun, fun h => absurd rfl h.1.1⟩
    | cons d ds =>
      rw [List.isEmpty_cons, if_neg Bool.false_ne_true, Option.filter_eq_some_iff,
        digits?_eq_some_iff, decide_eq_true_iff, and_iff_right (List.cons_ne_nil d ds)]
  unfold count? Spells
  dsimp only
  split
  · next ds =>
    rw [hread]
    refine and_congr_left fun _ => ⟨fun h => ⟨ds, .inr rfl, h⟩, ?_⟩
    rintro ⟨digits, hsign | hsign, hne, hall, hvalue⟩
    -- a plus sign is no digit
    · rw [← hsign] at hall
      exact absurd (hall '+' List.mem_cons_self) (by decide)
    · rw [(List.cons.inj hsign).2]
      exact ⟨hne, hall, hvalue⟩
  · next hsign =>
    rw [hread]
    refine and_congr_left fun _ => ⟨fun h => ⟨cs, .inl rfl, h⟩, ?_⟩
    rintro ⟨digits, hplain | hplus, hrest⟩
    · rw [hplain]
      exact hrest
    · exact absurd hplus (hsign digits)

theorem Spells.unique {m : Nat} (h : Spells cs n) (h' : Spells cs m) : n = m := by
  have hn : count? (n + m + 1) cs = some n := count?_eq_some_iff.2 ⟨h, by omega⟩
  have hm : count? (n + m + 1) cs = some m := count?_eq_some_iff.2 ⟨h', by omega⟩
  exact Option.some.inj (hn.symm.trans hm)

theorem spells_repr (n : Nat) : Spells (toString n).toList n := by
  refine ⟨Nat.toDigits 10 n, .inl Nat.toList_repr, Nat.toDigits_ne_nil, fun c hc => ?_,
    Nat.ofDigitChars_toDigits (by decide) (by decide)⟩
  exact Nat.isDigit_of_mem_toDigits (by decide) (by decide) hc

end ChatRelay.Text

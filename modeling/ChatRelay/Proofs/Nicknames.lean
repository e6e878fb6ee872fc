import ChatRelay.Proofs.Admission

/-! Nicknames and where they lead. A nickname leads to nobody but an admitted session that bears it.
That a running session can be found by its nickname holds until a session that stopped, and whose
nickname has been taken over, asks for another one: then it gives up what is no longer its own. -/

namespace ChatRelay
namespace Ledger

open Hub (Event)

variable {l k : Ledger} {e : Event} {id : SessionId} {nickname : String}

/-- A nickname leads only to who is admitted and bears it. -/
def Indexed (l : Ledger) : Prop :=
  ∀ ⦃nickname id⦄, l.nicknames.get? nickname = some id →
    id ∈ l.admitted ∧ (l.profile id).nickname = some nickname

/-- Whoever runs is found by its nickname. -/
def Named (l : Ledger) : Prop :=
  ∀ ⦃id nickname⦄, id ∈ l.admitted → l.running id → (l.profile id).nickname = some nickname →
    l.nicknames.get? nickname = some id

def Displaces (l : Ledger) (e : Event) : Prop :=
  ∃ id nickname old other, e = .request (.register id nickname) ∧ l.claims id nickname ∧
    (l.profile id).nickname = some old ∧ l.holder? old = some other ∧ other ≠ id

/-! ### What a step does to nicknames -/

theorem nickname_setRoom (l : Ledger) (id : SessionId) (room : Option String) (i : SessionId) :
    ((l.setRoom id room).profile i).nickname = (l.profile i).nickname := by
  by_cases hi : i = id
  · simp only [setRoom, hi, Function.update_self]
  · rw [profile_setRoom_of_ne l hi]

theorem profile_rename_self (l : Ledger) (id : SessionId) (nickname : String) :
    ((l.rename id nickname).profile id).nickname = some nickname := by
  simp only [rename, Function.update_self]

theorem profile_rename_of_ne (l : Ledger) {id i : SessionId} (hi : i ≠ id) (nickname : String) :
    (l.rename id nickname).profile i = l.profile i := Function.update_of_ne hi _ _

theorem get?_rename (l : Ledger) (id : SessionId) (nickname n : String) :
    (l.rename id nickname).nicknames.get? n =
      if n = nickname then some id
      else if (l.profile id).nickname = some n then none
      else l.nicknames.get? n := by
  unfold rename
  rw [Registry.get?_insert]
  by_cases hn : n = nickname
  · rw [if_pos hn, if_pos hn]
  · rw [if_neg hn, if_neg hn]
    cases ho : (l.profile id).nickname with
    | none => rw [if_neg (Option.some_ne_none n).symm]
    | some old =>
      dsimp only
      rw [Registry.get?_erase]
      by_cases hno : n = old
      · rw [if_pos hno, if_pos (congrArg some hno.symm)]
      · rw [if_neg hno, if_neg fun h => hno (Option.some.inj h).symm]

theorem Step.nickname_cases (hs : l.Step e k) (id : SessionId) :
    (k.profile id).nickname = (l.profile id).nickname ∨
      ∃ nickname, e = .request (.register id nickname) ∧ l.claims id nickname ∧
        k = l.rename id nickname := by
  cases hs with
  | @rename i nickname claimed =>
    by_cases hi : id = i
    · exact .inr ⟨nickname, hi ▸ rfl, hi ▸ claimed, hi ▸ rfl⟩
    · exact .inl (congrArg Profile.nickname (profile_rename_of_ne l hi nickname))
  | depart | reenter | enter | exit => exact .inl (nickname_setRoom ..)
  | rest | create | stop | expire | welcome | refuse | halt => exact .inl rfl

theorem Step.nickname_eq (hs : l.Step e k) (out : id ∉ l.admitted) :
    (k.profile id).nickname = (l.profile id).nickname := by
  rcases hs.nickname_cases id with h | ⟨nickname, -, claimed, -⟩
  · exact h
  · exact absurd (knows_iff.1 (hears_iff.1 claimed.1).2).1 out

theorem Step.joined_of_mem (hs : l.Step e k) (hi : id ∈ k.admitted) :
    id ∈ l.admitted ∨ e.joined? = some id := by
  cases hs with
  | welcome =>
    rcases List.mem_append.1 hi with hi | hi
    · exact .inl hi
    · rw [List.mem_singleton.1 hi]
      exact .inr rfl
  | depart => exact .inl (List.mem_filter.1 hi).1
  | rest | create | stop | expire | rename | reenter | refuse | enter | exit | halt => exact .inl hi

/-! ### Where a nickname leads -/

namespace Indexed

theorem get?_nicknamesWithout (hi : l.Indexed) (hg : l.Grounded) (id : SessionId) (n : String) :
    (l.nicknamesWithout id).get? n =
      if l.nicknames.get? n = some id then none else l.nicknames.get? n := by
  have hself : l.nicknames.get? n = some id → (l.profile id).nickname = some n := fun h => (hi h).2
  unfold nicknamesWithout
  cases ho : (l.profile id).nickname with
  | none => rw [if_neg fun h => Option.some_ne_none n ((hself h).symm.trans ho)]
  | some old =>
    have hold : l.nicknames.get? n = some id → n = old := fun h =>
      Option.some.inj ((hself h).symm.trans ho)
    dsimp only
    cases hh : l.nicknames.get? old with
    | none =>
      dsimp only
      rw [if_neg]
      intro h
      rw [hold h, hh] at h
      cases h
    | some holder =>
      dsimp only
      by_cases hid : holder = id
      · rw [if_pos (.inl hid), Registry.get?_erase]
        by_cases hn : n = old
        · rw [if_pos hn, if_pos (by rw [hn, hh, hid])]
        · rw [if_neg hn, if_neg (mt hold hn)]
      · have hthere : l.present holder = true := hg.present holder (hi hh).1
        rw [if_neg, if_neg]
        · intro h
          rw [hold h, hh] at h
          exact hid (Option.some.inj h)
        · rintro (h | h)
          · exact hid h
          · rw [hthere] at h
            cases h

theorem of_same (hi : l.Indexed) (hnames : k.nicknames = l.nicknames)
    (hnick : ∀ i, (k.profile i).nickname = (l.profile i).nickname)
    (hadm : ∀ i ∈ l.admitted, i ∈ k.admitted) : k.Indexed := by
  intro n i h
  rw [hnames] at h
  rw [hnick]
  exact ⟨hadm i (hi h).1, (hi h).2⟩

theorem rename (hi : l.Indexed) (hid : id ∈ l.admitted) (nickname : String) :
    (l.rename id nickname).Indexed := by
  intro n i h
  rw [get?_rename] at h
  by_cases hn : n = nickname
  · rw [if_pos hn, Option.some.injEq] at h
    subst h
    rw [hn]
    exact ⟨hid, profile_rename_self l id nickname⟩
  · rw [if_neg hn] at h
    by_cases ho : (l.profile id).nickname = some n
    · rw [if_pos ho] at h
      cases h
    · rw [if_neg ho] at h
      have hne : i ≠ id := fun hi' => ho (hi' ▸ (hi h).2)
      rw [profile_rename_of_ne l hne]
      exact hi h

theorem depart (hi : l.Indexed) (hg : l.Grounded) (id : SessionId) : (l.depart id).Indexed := by
  intro n i h
  have hget := hi.get?_nicknamesWithout hg id n
  rw [show (l.depart id).nicknames = l.nicknamesWithout id from rfl, hget] at h
  by_cases hid : l.nicknames.get? n = some id
  · rw [if_pos hid] at h
    cases h
  · rw [if_neg hid] at h
    have hne : i ≠ id := fun hi' => hid (hi' ▸ h)
    refine ⟨List.mem_filter.2 ⟨(hi h).1, decide_eq_true hne⟩, ?_⟩
    rw [show ((l.depart id).profile i).nickname = _ from nickname_setRoom l id none i]
    exact (hi h).2

theorem step (hs : l.Step e k) (hg : l.Grounded) (hi : l.Indexed) : k.Indexed := by
  cases hs with
  | welcome =>
    exact hi.of_same rfl (fun _ => rfl) fun i ha => List.mem_append_left _ ha
  | depart => exact hi.depart hg _
  | rename claimed => exact hi.rename (knows_iff.1 (hears_iff.1 claimed.1).2).1 _
  | reenter | enter => exact hi.of_same rfl (nickname_setRoom l _ (some _)) fun _ ha => ha
  | exit => exact hi.of_same rfl (nickname_setRoom l _ none) fun _ ha => ha
  | rest | create | stop | expire | refuse | halt =>
    exact hi.of_same rfl (fun _ => rfl) fun _ ha => ha

end Indexed

/-! ### Who can be found -/

theorem holder?_eq_some_iff {other : SessionId} :
    l.holder? nickname = some other ↔ l.nicknames.get? nickname = some other ∧ l.live other := by
  unfold holder?
  rw [Option.filter_eq_some_iff]

namespace Named

theorem holder?_eq (hn : l.Named) (hg : l.Grounded) (ha : id ∈ l.admitted) (hrun : l.running id)
    (hp : (l.profile id).nickname = some nickname) : l.holder? nickname = some id :=
  holder?_eq_some_iff.2 ⟨hn ha hrun hp, (hg.live_iff ha).2 hrun⟩

theorem of_same (hn : l.Named) (hnames : k.nicknames = l.nicknames)
    (hold : ∀ i, i ∈ k.admitted → k.running i → (k.profile i).nickname ≠ none →
      i ∈ l.admitted ∧ l.running i ∧ (k.profile i).nickname = (l.profile i).nickname) :
    k.Named := by
  intro i n ha hrun hp
  obtain ⟨ha', hrun', hp'⟩ := hold i ha hrun (by rw [hp]; exact Option.some_ne_none n)
  rw [hnames]
  exact hn ha' hrun' (hp' ▸ hp)

theorem welcome (hn : l.Named) (fresh : (l.profile id).nickname = none) :
    Named { l with admitted := l.admitted ++ [id] } := by
  refine hn.of_same rfl fun i ha hrun hp => ?_
  rcases List.mem_append.1 ha with ha | ha
  · exact ⟨ha, hrun, rfl⟩
  · rw [List.mem_singleton.1 ha] at hp
    exact absurd fresh hp

theorem depart (hn : l.Named) (hi : l.Indexed) (hg : l.Grounded) (id : SessionId) :
    (l.depart id).Named := by
  intro i n ha hrun hp
  obtain ⟨ha, hne⟩ := List.mem_filter.1 ha
  rw [show ((l.depart id).profile i).nickname = _ from nickname_setRoom l id none i] at hp
  have hget : l.nicknames.get? n = some i := hn ha hrun hp
  have hother : l.nicknames.get? n ≠ some id := by
    rw [hget]
    exact fun h => of_decide_eq_true hne (Option.some.inj h)
  rw [show (l.depart id).nicknames = l.nicknamesWithout id from rfl, hi.get?_nicknamesWithout hg,
    if_neg hother, hget]

theorem rename (hn : l.Named) (hg : l.Grounded) (claimed : l.claims id nickname)
    (kept : ∀ old, (l.profile id).nickname = some old →
      ∀ other, l.holder? old = some other → other = id) : (l.rename id nickname).Named := by
  intro i n ha hrun hp
  rw [get?_rename]
  by_cases hid : i = id
  · subst hid
    rw [profile_rename_self, Option.some.injEq] at hp
    rw [if_pos hp.symm]
  · rw [profile_rename_of_ne l hid] at hp
    have hholder : l.holder? n = some i := hn.holder?_eq hg ha hrun hp
    rw [if_neg, if_neg]
    · exact hn ha hrun hp
    · exact fun ho => hid (kept n ho i hholder)
    -- nobody live holds what is asked for
    · intro heq
      have hfree := claimed.2.2
      rw [← heq, hholder] at hfree
      cases hfree

theorem step (hs : l.Step e k) (hg : l.Grounded) (hi : l.Indexed)
    (fresh : ∀ id, e = .request (.join id) → (l.profile id).nickname = none)
    (kept : ¬ l.Displaces e) (hn : l.Named) : k.Named := by
  have hback : ∀ i ∈ l.admitted, k.running i → l.running i := fun i ha hr =>
    hs.running_before hg ha hr
  cases hs with
  | rest | create | stop | expire | refuse | halt =>
    exact hn.of_same rfl fun i ha hrun _ => ⟨ha, hback i ha hrun, rfl⟩
  | reenter | enter =>
    exact hn.of_same rfl fun i ha hrun _ => ⟨ha, hrun, nickname_setRoom l _ (some _) i⟩
  | exit => exact hn.of_same rfl fun i ha hrun _ => ⟨ha, hrun, nickname_setRoom l _ none i⟩
  | welcome => exact hn.welcome (fresh _ rfl)
  | depart => exact hn.depart hi hg _
  | rename claimed =>
    refine hn.rename hg claimed fun old ho other hother => ?_
    by_contra hne
    exact kept ⟨_, _, old, other, rfl, claimed, ho, hother, hne⟩

end Named

theorem not_named_of_displaces (hi : l.Indexed) {request : Request}
    (hd : l.Displaces (.request request)) : ¬ (l.handle request).Named := by
  obtain ⟨id, nickname, old, other, he, claimed, ho, hother, hne⟩ := hd
  cases he
  obtain ⟨hget, hlive⟩ := holder?_eq_some_iff.1 hother
  obtain ⟨ha, hp⟩ := hi hget
  rw [handle, register, if_pos claimed]
  intro hn
  have hrun : l.running other = true := ((Bool.and_eq_true _ _).mp hlive).1
  have hfound := @hn other old ha hrun (by rw [profile_rename_of_ne l hne, hp])
  have hdiff : old ≠ nickname := by
    rintro rfl
    rw [claimed.2.2] at hother
    cases hother
  rw [get?_rename, if_neg hdiff, if_pos ho] at hfound
  cases hfound

end Ledger

namespace Hub

variable {limits : Limits} {archive : Option Archive} {stamp : String} {es : List Event}

theorem Reachable.indexed {h : Hub} (hr : h.Reachable limits) : h.ledger.Indexed := by
  have hboth := hr.ledger_induction (P := fun l => l.Grounded ∧ l.Indexed)
    (fun _ _ => ⟨Ledger.grounded_start .., fun _ _ h => nomatch h⟩)
    fun hs h => ⟨h.1.step hs, h.2.step hs h.1⟩
  exact hboth.2

theorem fresh_run (hf : (start limits archive stamp).feasible es) :
    ∀ id ∉ joined es, id ∉ ((start limits archive stamp).run es).admitted ∧
      (((start limits archive stamp).run es).ledger.profile id).nickname = none := by
  refine prefix_induction (P := fun p => ∀ id ∉ joined p,
    id ∉ ((start limits archive stamp).run p).admitted ∧
      (((start limits archive stamp).run p).ledger.profile id).nickname = none)
    hf (fun _ _ => ⟨List.not_mem_nil, rfl⟩) ?_ es List.prefix_rfl
  intro p e _ he ih id hid
  rw [joined_concat, List.mem_append, not_or, Option.mem_toList] at hid
  obtain ⟨out, hnick⟩ := ih id hid.1
  have hs := ledger_step he
  rw [run_concat]
  refine ⟨fun hi => ?_, (hs.nickname_eq out).trans hnick⟩
  exact (hs.joined_of_mem hi).elim out hid.2

structure NamesAgree (h : Hub) : Prop where
  unique : ∀ {i j s t nickname}, h.session i = .ok s → h.session j = .ok t →
    s.stopped = false → t.stopped = false → s.profile.nickname = some nickname →
      t.profile.nickname = some nickname → i = j
  indexed : ∀ {id s nickname}, h.session id = .ok s → s.stopped = false →
    s.profile.nickname = some nickname → h.nicknames.get? nickname = some id

/-- A session takes a new nickname while the one it gives up is held by somebody else. -/
def Displaces (h : Hub) (e : Event) : Prop :=
  ∃ id nickname s old other, e = .request (.register id nickname) ∧ h.requester id = .ok s ∧
    Name.check .nickname h.limits.nameLength nickname = .ok () ∧ h.holder? nickname = none ∧
      s.profile.nickname = some old ∧ h.holder? old = some other ∧ other ≠ id

theorem namesAgree_iff_named {h : Hub} (hg : h.ledger.Grounded) :
    NamesAgree h ↔ h.ledger.Named := by
  constructor
  · intro ha id nickname hid hrun hp
    obtain ⟨s, hs⟩ := exists_session_of_mem hg hid
    rw [running_of_session hs, Bool.not_eq_true'] at hrun
    rw [profile_of_session hs] at hp
    exact ha.indexed hs hrun hp
  · intro hn
    have hindexed : ∀ {id s nickname}, h.session id = .ok s → s.stopped = false →
        s.profile.nickname = some nickname → h.nicknames.get? nickname = some id := by
      intro id s nickname hs hrun hp
      refine hn (session_eq_ok_iff.1 hs).1 ?_ (by rw [profile_of_session hs, hp])
      rw [running_of_session hs, hrun]
      rfl
    refine ⟨fun hs ht hrun hrun' hp hp' => ?_, hindexed⟩
    have hi := hindexed hs hrun hp
    rw [hindexed ht hrun' hp', Option.some.injEq] at hi
    exact hi.symm

theorem displaces_iff {h : Hub} {e : Event} : h.Displaces e ↔ h.ledger.Displaces e := by
  unfold Displaces Ledger.Displaces Ledger.claims
  simp only [holder?_eq, Name.check_eq_ok_iff]
  constructor
  · rintro ⟨id, nickname, s, old, other, rfl, hq, hn, hfree, ho, hother, hne⟩
    rw [← profile_of_session (requester_eq_ok_iff.1 hq).2] at ho
    have hh := exists_requester_iff.1 ⟨s, hq⟩
    exact ⟨id, nickname, old, other, rfl, ⟨hh, hn, hfree⟩, ho, hother, hne⟩
  · rintro ⟨id, nickname, old, other, rfl, ⟨hh, hn, hfree⟩, ho, hother, hne⟩
    obtain ⟨s, hq⟩ := exists_requester_iff.2 hh
    rw [profile_of_session (requester_eq_ok_iff.1 hq).2] at ho
    exact ⟨id, nickname, s, old, other, rfl, hq, hn, hfree, ho, hother, hne⟩

/-- When every session joins at most once, nicknames agree all along exactly if nobody displaces
anybody. -/
theorem names_agree_iff (hf : (start limits archive stamp).feasible es)
    (once : (joined es).Nodup) :
    (∀ p, p <+: es → NamesAgree ((start limits archive stamp).run p)) ↔
      ∀ p e, p ++ [e] <+: es → ¬ ((start limits archive stamp).run p).Displaces e := by
  have hgrounded : ∀ p, p <+: es → ((start limits archive stamp).run p).ledger.Grounded :=
    fun p hp => (reachable_run (feasible_before hf hp)).grounded
  have hindexed : ∀ p, p <+: es → ((start limits archive stamp).run p).ledger.Indexed :=
    fun p hp => (reachable_run (feasible_before hf hp)).indexed
  constructor
  · intro agree p e hp hd
    have hl := displaces_iff.1 hd
    obtain ⟨id, nickname, -, -, -, rfl, -⟩ := hd
    have hn := (namesAgree_iff_named (hgrounded _ hp)).1 (agree _ hp)
    rw [run_concat, step, ledger_handle] at hn
    have hp' := (List.prefix_append p [.request (.register id nickname)]).trans hp
    exact Ledger.not_named_of_displaces (hindexed p hp') hl hn
  · intro kept p hp
    rw [namesAgree_iff_named (hgrounded p hp)]
    revert p
    refine prefix_induction hf (fun _ _ ha => by cases ha) ?_
    intro p e hp he ih
    have hp' : p <+: es := (List.prefix_append p [e]).trans hp
    rw [run_concat]
    refine ih.step (ledger_step he) (hgrounded p hp') (hindexed p hp') ?_
      (mt displaces_iff.2 (kept p e hp))
    rintro id rfl
    exact (fresh_run (feasible_before hf hp') id (not_joined_before once hp)).2

def takeover : List Event :=
  [.create "a" .line 8, .create "b" .line 8, .create "c" .line 8, .request (.join 0),
    .request (.join 1), .request (.join 2), .request (.register 0 "x"), .act 0 .stop,
    .request (.register 1 "x"), .request (.register 0 "y"), .request (.register 2 "x")]

theorem names_disagree_takeover :
    (start .standard none "").feasible takeover ∧ (joined takeover).Nodup ∧
      ((start .standard none "").run takeover).admitted = [0, 1, 2] ∧
      [1, 2].map ((start .standard none "").run takeover).ledger.live = [true, true] ∧
      [1, 2].map (fun id => (((start .standard none "").run takeover).ledger.profile id).nickname) =
        [some "x", some "x"] ∧
      ¬ ∀ p, p <+: takeover → NamesAgree ((start .standard none "").run p) := by
  refine ⟨by decide, by decide, by decide +kernel, by decide +kernel, by decide +kernel, ?_⟩
  intro agree
  have kept := (names_agree_iff (by decide) (by decide)).1 agree (takeover.take 9)
    (.request (.register 0 "y")) ⟨[.request (.register 2 "x")], rfl⟩
  refine kept (displaces_iff.2 ⟨0, "y", "x", 1, rfl, ?_, ?_, ?_, by decide⟩)
  all_goals decide +kernel

end Hub
end ChatRelay

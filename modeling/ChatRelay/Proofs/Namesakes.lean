import ChatRelay.Proofs.Nicknames

/-! Whom a displayed name denotes. Nicknames are told apart, and so are addresses, but nothing keeps
a nickname from being an address: who takes as a nickname the address of somebody who has none goes
by the same name. -/

namespace ChatRelay
namespace Ledger

variable {l : Ledger} {e : Hub.Event}

theorem Named.not_displaces (hn : l.Named) (hg : l.Grounded) (awake : l.admitted.all l.running) :
    ¬ l.Displaces e := by
  rintro ⟨id, nickname, old, other, -, claimed, hold, hother, hne⟩
  have ha : id ∈ l.admitted := (knows_iff.1 (hears_iff.1 claimed.1).2).1
  have hself := hn.holder?_eq hg ha (List.all_eq_true.1 awake id ha) hold
  rw [hother] at hself
  exact hne (Option.some.inj hself)

end Ledger

namespace Hub

variable {limits : Limits} {archive : Option Archive} {stamp : String} {es : List Event} {h : Hub}
  {i j : SessionId} {s t : Session}

def tireless (h : Hub) : List Event → Bool
  | [] => h.admitted.all h.pool.running
  | e :: es => h.admitted.all h.pool.running && (h.step e).tireless es

theorem awake_of_tireless (ht : h.tireless es) {p : List Event} (hp : p <+: es) :
    (h.run p).admitted.all (h.run p).pool.running := by
  induction p generalizing h es with
  | nil =>
    cases es with
    | nil => exact ht
    | cons e es => exact ((Bool.and_eq_true _ _).mp ht).1
  | cons e p ih =>
    obtain ⟨rest, rfl⟩ := hp
    exact ih ((Bool.and_eq_true _ _).mp ht).2 (List.prefix_append p rest)

theorem named_of_tireless (hf : (start limits archive stamp).feasible es)
    (once : (joined es).Nodup) (ht : (start limits archive stamp).tireless es) :
    ((start limits archive stamp).run es).ledger.Named := by
  have hall : ∀ p, p <+: es → ((start limits archive stamp).run p).ledger.Named := by
    refine prefix_induction hf (fun _ _ ha => nomatch ha) ?_
    intro p e hp he ih
    have hp' : p <+: es := (List.prefix_append p [e]).trans hp
    have hf' := feasible_before hf hp'
    have hr := reachable_run hf'
    rw [run_concat]
    refine ih.step (ledger_step he) hr.grounded hr.indexed ?_
      (ih.not_displaces hr.grounded (awake_of_tireless ht hp'))
    rintro id rfl
    exact (fresh_run hf' id (not_joined_before once hp)).2
  exact hall es List.prefix_rfl

def TellsApart (h : Hub) (g : Session → String) : Prop :=
  ∀ i ∈ h.admitted, ∀ j ∈ h.admitted, (h.pool.get? i).map g = (h.pool.get? j).map g → i = j

instance (h : Hub) (g : Session → String) : Decidable (h.TellsApart g) :=
  inferInstanceAs (Decidable (∀ i ∈ h.admitted, ∀ j ∈ h.admitted, _ → i = j))

theorem TellsApart.ne {g : Session → String} (apart : h.TellsApart g) (hi : h.session i = .ok s)
    (hj : h.session j = .ok t) (hne : i ≠ j) : g s ≠ g t := by
  obtain ⟨hai, hgi⟩ := session_eq_ok_iff.1 hi
  obtain ⟨haj, hgj⟩ := session_eq_ok_iff.1 hj
  intro heq
  refine hne (apart i hai j haj ?_)
  rw [hgi, hgj, Option.map_some, Option.map_some, heq]

/-- While nobody stops, two sessions go by one name exactly if one of them goes by its address, and
the other bears that address as its nickname. -/
theorem displayName_eq_iff (hf : (start limits archive stamp).feasible es)
    (once : (joined es).Nodup) (ht : (start limits archive stamp).tireless es)
    (apart : ((start limits archive stamp).run es).TellsApart (·.remoteId))
    (hi : ((start limits archive stamp).run es).session i = .ok s)
    (hj : ((start limits archive stamp).run es).session j = .ok t) (hne : i ≠ j) :
    s.displayName = t.displayName ↔
      s.profile.nickname = none ∧ t.profile.nickname = some s.remoteId ∨
        t.profile.nickname = none ∧ s.profile.nickname = some t.remoteId := by
  have hg := (reachable_run hf).grounded
  have hagree := (namesAgree_iff_named hg).2 (named_of_tireless hf once ht)
  have haddress : s.remoteId ≠ t.remoteId := apart.ne hi hj hne
  have hrunning : ∀ {id u}, ((start limits archive stamp).run es).session id = .ok u →
      u.stopped = false := by
    intro id u hu
    have hrun := List.all_eq_true.1 (awake_of_tireless ht List.prefix_rfl) id
      (session_eq_ok_iff.1 hu).1
    rw [← Bool.not_eq_true', ← running_of_session hu]
    exact hrun
  constructor
  · intro hname
    unfold Session.displayName at hname
    cases hs : s.profile.nickname with
    | none =>
      cases hu : t.profile.nickname with
      | none =>
        rw [hs, hu] at hname
        exact absurd hname haddress
      | some nickname =>
        rw [hs, hu] at hname
        exact .inl ⟨rfl, congrArg some hname.symm⟩
    | some nickname =>
      cases hu : t.profile.nickname with
      | none =>
        rw [hs, hu] at hname
        exact .inr ⟨rfl, congrArg some hname⟩
      | some other =>
        rw [hs, hu] at hname
        cases (show nickname = other from hname)
        exact absurd (hagree.unique hi hj (hrunning hi) (hrunning hj) hs hu) hne
  · rintro (⟨hs, hu⟩ | ⟨hu, hs⟩)
    · simp only [Session.displayName, hs, hu, Option.getD_none, Option.getD_some]
    · simp only [Session.displayName, hs, hu, Option.getD_none, Option.getD_some]

def disguise : List Event :=
  [.create "10.0.0.1:1" .line 8, .create "10.0.0.1:2" .line 8, .create "10.0.0.1:3" .line 8,
    .request (.join 0), .request (.join 1), .request (.join 2),
    .request (.register 1 "10.0.0.1:1")]

theorem displayName_eq_disguise :
    let h := (start .standard none "").run disguise
    (start .standard none "").feasible disguise ∧ (joined disguise).Nodup ∧
      (start .standard none "").tireless disguise ∧ h.TellsApart (·.remoteId) ∧
      ∃ s t u, h.session 0 = .ok s ∧ h.session 1 = .ok t ∧ h.session 2 = .ok u ∧
        s.displayName = t.displayName ∧ s.displayName ≠ u.displayName := by
  intro h
  have hf : (start .standard none "").feasible disguise := by decide
  have once : (joined disguise).Nodup := by decide
  have ht : (start .standard none "").tireless disguise := by decide +kernel
  have apart : h.TellsApart (·.remoteId) := by decide +kernel
  have hshown : ∀ {id nickname address},
      (h.session id).map (fun s => (s.profile.nickname, s.remoteId)) = .ok (nickname, address) →
        ∃ s, h.session id = .ok s ∧ s.profile.nickname = nickname ∧ s.remoteId = address := by
    intro id nickname address hmap
    obtain ⟨s, hs, hpair⟩ := of_map_eq_ok hmap
    exact ⟨s, hs, congrArg Prod.fst hpair, congrArg Prod.snd hpair⟩
  obtain ⟨s, hs, hsn, hsa⟩ := @hshown 0 none "10.0.0.1:1" (by decide +kernel)
  obtain ⟨t, hu, hun, hua⟩ := @hshown 1 (some "10.0.0.1:1") "10.0.0.1:2" (by decide +kernel)
  obtain ⟨u, hv, hvn, hva⟩ := @hshown 2 none "10.0.0.1:3" (by decide +kernel)
  refine ⟨hf, once, ht, apart, s, t, u, hs, hu, hv, ?_, ?_⟩
  · rw [displayName_eq_iff hf once ht apart hs hu (by decide)]
    exact .inl ⟨hsn, by rw [hun, hsa]⟩
  · rw [Ne, displayName_eq_iff hf once ht apart hs hv (by decide), hsn, hvn]
    rintro (⟨-, h⟩ | ⟨-, h⟩) <;> cases h

theorem not_tellsApart_displayName :
    ¬ ∀ es : List Event, (start .standard none "").feasible es → (joined es).Nodup →
      (start .standard none "").tireless es →
      ((start .standard none "").run es).TellsApart (·.remoteId) →
      ((start .standard none "").run es).TellsApart (·.displayName) := by
  intro hall
  have himplies := hall disguise (by decide) (by decide) (by decide +kernel) (by decide +kernel)
  exact absurd himplies (by decide +kernel)

end Hub
end ChatRelay

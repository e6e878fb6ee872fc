import ChatRelay.Proofs.Nicknames
import Mathlib.Data.List.Perm.Subperm

/-! Who a session says it is. A profile holds only names that passed their check, and the index of
nicknames has one entry at most for every admitted session, whose own nickname it is. -/

namespace ChatRelay

structure Profile.Vetted (limits : Limits) (p : Profile) : Prop where
  nickname : ∀ {name}, p.nickname = some name →
    Name.flaw? .nickname limits.nameLength name = none
  room : ∀ {name}, p.room = some name → Name.flaw? .room limits.nameLength name = none
  authenticated : p.authenticated = p.nickname.isSome

theorem Profile.vetted_fresh (limits : Limits) : fresh.Vetted limits :=
  ⟨fun h => (nomatch h), fun h => (nomatch h), rfl⟩

namespace Registry

variable {κ ν : Type} [DecidableEq κ] {r : Registry κ ν} {key : κ} {value : ν}

theorem lookup_eq_some_of_mem {es : List (κ × ν)} (hn : (es.map Prod.fst).Nodup)
    (h : (key, value) ∈ es) : es.lookup key = some value := by
  induction es with
  | nil => cases h
  | cons e es ih =>
    rw [List.map_cons, List.nodup_cons] at hn
    rcases List.mem_cons.1 h with rfl | h
    · exact List.lookup_cons_self
    · have hne : (key == e.1) = false := by
        rw [beq_eq_false_iff_ne]
        rintro rfl
        exact hn.1 (List.mem_map.2 ⟨_, h, rfl⟩)
      rw [List.lookup_cons, hne]
      exact ih hn.2 h

theorem get?_of_mem (h : (key, value) ∈ r.entries) : r.get? key = some value :=
  lookup_eq_some_of_mem r.nodup h

theorem size_le_of_injective [DecidableEq ν] {values : List ν}
    (hvalues : ∀ {key value}, r.get? key = some value → value ∈ values)
    (hinj : ∀ {key other value}, r.get? key = some value → r.get? other = some value →
      key = other) : r.size ≤ values.length := by
  have hnodup : (r.entries.map Prod.snd).Nodup := by
    refine (List.Nodup.of_map _ r.nodup).map_on ?_
    rintro ⟨key, value⟩ h ⟨other, value'⟩ h' hv
    cases hv
    rw [hinj (get?_of_mem h) (get?_of_mem h')]
  have hsub : r.entries.map Prod.snd ⊆ values := by
    intro value hv
    obtain ⟨e, he, rfl⟩ := List.mem_map.1 hv
    exact hvalues (get?_of_mem he)
  rw [size, ← List.length_map (f := Prod.snd)]
  exact (hnodup.subperm hsub).length_le

end Registry

namespace Ledger

variable {l k : Ledger} {e : Hub.Event} {id : SessionId}

def Vetted (l : Ledger) : Prop := ∀ id, (l.profile id).Vetted l.limits

namespace Vetted

theorem setRoom (hv : l.Vetted) (id : SessionId) {room : Option String}
    (h : ∀ {name}, room = some name → Name.flaw? .room l.limits.nameLength name = none) :
    (l.setRoom id room).Vetted := by
  intro i
  by_cases hi : i = id
  · subst hi
    simp only [Ledger.setRoom, Function.update_self]
    exact ⟨(hv i).nickname, h, (hv i).authenticated⟩
  · rw [profile_setRoom_of_ne l hi]
    exact hv i

theorem rename (hv : l.Vetted) {nickname : String} (claimed : l.claims id nickname) :
    (l.rename id nickname).Vetted := by
  intro i
  by_cases hi : i = id
  · subst hi
    simp only [Ledger.rename, Function.update_self]
    refine ⟨fun h => ?_, (hv i).room, rfl⟩
    cases h
    exact claimed.2.1
  · rw [profile_rename_of_ne l hi]
    exact hv i

theorem step (hs : l.Step e k) (hv : l.Vetted) : k.Vetted := by
  cases hs with
  | rename claimed => exact hv.rename claimed
  | reenter seeks | enter seeks =>
    refine hv.setRoom _ fun h => ?_
    cases h
    exact seeks.2.1
  | depart | exit => exact hv.setRoom _ fun h => (nomatch h)
  | rest | create | stop | expire | welcome | refuse | halt => exact hv

end Vetted

theorem not_mem_leave (hg : l.Grounded) (id : SessionId) : id ∉ (l.leave id).admitted := by
  unfold leave
  split
  · intro h
    exact of_decide_eq_true (List.mem_filter.1 h).2 rfl
  · next hk => exact mt hg.knows_iff.2 hk

end Ledger

namespace Hub

variable {limits : Limits} {h : Hub}

theorem Reachable.vetted (hr : h.Reachable limits) : h.ledger.Vetted :=
  hr.ledger_induction (P := Ledger.Vetted) (fun _ _ _ => Profile.vetted_fresh _) Ledger.Vetted.step

/-- What the index of nicknames can be relied on for. -/
structure IndexSound (limits : Limits) (h : Hub) : Prop where
  bearer : ∀ {nickname id}, h.nicknames.get? nickname = some id →
    ∃ s, h.session id = .ok s ∧ s.profile.nickname = some nickname
  valid : ∀ {nickname id}, h.nicknames.get? nickname = some id →
    Name.check .nickname limits.nameLength nickname = .ok () ∧ nickname ∉ Name.reserved
  single : ∀ {nickname other id}, h.nicknames.get? nickname = some id →
    h.nicknames.get? other = some id → nickname = other
  authenticated : ∀ {id s}, h.session id = .ok s →
    (s.profile.authenticated = true ↔ ∃ nickname, s.profile.nickname = some nickname)
  identified : h.status.identified = h.nicknames.size
  bounded : h.status.identified ≤ h.status.sessions
  released : ∀ {nickname id}, (h.leave id).nicknames.get? nickname ≠ some id

theorem identified_eq_size (hg : h.ledger.Grounded) (hi : h.ledger.Indexed) :
    h.status.identified = h.nicknames.size := by
  refine List.countP_eq_length.2 fun e he => ?_
  have hthere := hg.present e.2 (hi (Registry.get?_of_mem he)).1
  exact (h.pool.isSome_reach? e.2).trans hthere

theorem index_sound (hr : h.Reachable limits) : IndexSound limits h := by
  have hg := hr.grounded
  have hi := hr.indexed
  have hv := hr.vetted
  have hsingle : ∀ {nickname other id}, h.nicknames.get? nickname = some id →
      h.nicknames.get? other = some id → nickname = other := fun h h' =>
    Option.some.inj ((hi h).2.symm.trans (hi h').2)
  refine ⟨fun {nickname id} hn => ?_, fun hn => ?_, hsingle, fun {id s} hs => ?_,
    identified_eq_size hg hi, ?_, fun {nickname id} hn => ?_⟩
  · obtain ⟨s, hs⟩ := exists_session_of_mem hg (hi hn).1
    exact ⟨s, hs, profile_of_session hs ▸ (hi hn).2⟩
  · have hflaw := (hv _).nickname (hi hn).2
    rw [show h.ledger.limits = limits from hr.limits_eq] at hflaw
    exact ⟨Name.check_eq_ok_iff.2 hflaw, (Name.flaw?_eq_none_iff.1 hflaw).2.2.2 rfl⟩
  · have hauth := (hv id).authenticated
    rw [profile_of_session hs] at hauth
    rw [hauth, Option.isSome_iff_exists]
  · rw [identified_eq_size hg hi]
    exact Registry.size_le_of_injective (fun hn => (hi hn).1) hsingle
  · have hleft : (h.leave id).ledger = h.ledger.leave id := ledger_leave id
    have hindexed : (h.leave id).ledger.Indexed := (hr.step (e := .request (.leave id)) rfl).indexed
    have ha := (hindexed hn).1
    rw [hleft] at ha
    exact Ledger.not_mem_leave hg id ha

def succession : List Event :=
  [.create "a" .line 8, .create "b" .line 8, .request (.join 0), .request (.join 1),
    .request (.register 0 "x"), .act 0 .stop, .request (.register 1 "x"), .request (.leave 0)]

theorem index_sound_succession :
    (start .standard none "").feasible succession ∧
      ((start .standard none "").run succession).nicknames.get? "x" = some 1 ∧
      ((start .standard none "").run succession).status.identified = 1 ∧
      IndexSound .standard ((start .standard none "").run succession) :=
  ⟨by decide, by decide +kernel, by decide +kernel,
    index_sound ⟨none, "", succession, by decide, rfl⟩⟩

end Hub
end ChatRelay

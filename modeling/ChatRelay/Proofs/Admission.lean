import ChatRelay.Proofs.Ledger.Step
import Mathlib.Data.List.Nodup

/-! Who is admitted. Nobody is admitted twice, and whoever is admitted can be reached. -/

namespace ChatRelay

namespace Name

theorem check_eq_ok_iff {kind : Kind} {limit : Nat} {name : String} :
    check kind limit name = .ok () ↔ flaw? kind limit name = none := by
  unfold check
  cases flaw? kind limit name <;> simp

end Name

namespace Ledger

structure Grounded (l : Ledger) : Prop where
  nodup : l.admitted.Nodup
  known : ∀ id ∈ l.admitted, id < l.size
  present : ∀ id ∈ l.admitted, l.present id

variable {l k : Ledger} {e : Hub.Event} {id : SessionId}

theorem Grounded.knows_iff (hg : l.Grounded) : l.knows id ↔ id ∈ l.admitted := by
  rw [Ledger.knows_iff]
  exact and_iff_left_of_imp (hg.known id)

theorem Grounded.live_iff (hg : l.Grounded) (ha : id ∈ l.admitted) : l.live id ↔ l.running id := by
  rw [live, hg.present id ha, Bool.and_true]

theorem Grounded.create (hg : l.Grounded) : l.create.Grounded := by
  refine ⟨hg.nodup, fun i hi => Nat.lt_succ_of_lt (hg.known i hi), fun i hi => ?_⟩
  have hne : i ≠ l.size := Nat.ne_of_lt (hg.known i hi)
  simp only [Ledger.create, Function.update_of_ne hne]
  exact hg.present i hi

theorem Grounded.expire (hg : l.Grounded) (out : id ∉ l.admitted) : (l.expire id).Grounded := by
  refine ⟨hg.nodup, hg.known, fun i hi => ?_⟩
  have hne : i ≠ id := fun h => out (h ▸ hi)
  simp only [Ledger.expire, Function.update_of_ne hne]
  exact hg.present i hi

theorem Grounded.welcome (hg : l.Grounded) (known : id < l.size) (there : l.present id)
    (out : id ∉ l.admitted) : Grounded { l with admitted := l.admitted ++ [id] } := by
  have hmem : ∀ i ∈ l.admitted ++ [id], i ∈ l.admitted ∨ i = id := fun i hi => by
    simpa only [List.mem_append, List.mem_singleton] using hi
  refine ⟨?_, fun i hi => ?_, fun i hi => ?_⟩
  · rw [List.nodup_append]
    refine ⟨hg.nodup, List.nodup_singleton id, fun a ha b hb hab => out ?_⟩
    rw [← List.mem_singleton.1 hb, ← hab]
    exact ha
  · rcases hmem i hi with ha | rfl
    · exact hg.known i ha
    · exact known
  · rcases hmem i hi with ha | rfl
    · exact hg.present i ha
    · exact there

theorem Grounded.depart (hg : l.Grounded) (id : SessionId) : (l.depart id).Grounded := by
  have hmem : ∀ i ∈ l.admitted.filter (· ≠ id), i ∈ l.admitted := fun i hi =>
    (List.mem_filter.1 hi).1
  exact ⟨hg.nodup.filter _, fun i hi => hg.known i (hmem i hi),
    fun i hi => hg.present i (hmem i hi)⟩

theorem Grounded.step (hs : l.Step e k) (hg : l.Grounded) : k.Grounded := by
  cases hs with
  | create => exact hg.create
  | expire out => exact hg.expire out
  | welcome _ known there out => exact hg.welcome known there out
  | depart => exact hg.depart _
  | rest | stop | rename | reenter | refuse | enter | exit | halt =>
    exact ⟨hg.nodup, hg.known, hg.present⟩

theorem Grounded.perm_cons (hg : l.Grounded) (ha : id ∈ l.admitted) :
    l.admitted.Perm (id :: l.admitted.filter (· ≠ id)) := by
  have herase : l.admitted.filter (· ≠ id) = l.admitted.erase id := by
    rw [hg.nodup.erase_eq_filter]
    congr 1
    funext i
    rw [bne, decide_not, beq_eq_decide]
  rw [herase]
  exact List.perm_cons_erase ha

theorem Step.admitted_eq (hs : l.Step e k) (hj : ∀ i, e ≠ .request (.join i))
    (hl : ∀ i, e ≠ .request (.leave i)) : k.admitted = l.admitted := by
  cases hs with
  | welcome => exact absurd rfl (hj _)
  | depart => exact absurd rfl (hl _)
  | rest | create | stop | expire | rename | reenter | refuse | enter | exit | halt => rfl

theorem Step.running_before (hs : l.Step e k) (hg : l.Grounded) (ha : id ∈ l.admitted)
    (hr : k.running id) : l.running id := by
  cases hs with
  | create =>
    have hne : id ≠ l.size := Nat.ne_of_lt (hg.known id ha)
    simpa only [Ledger.create, Function.update_of_ne hne] using hr
  | stop i =>
    have hne : id ≠ i := by
      rintro rfl
      simp only [Ledger.stop, Function.update_self, Bool.false_eq_true] at hr
    simpa only [Ledger.stop, Function.update_of_ne hne] using hr
  | halt => exact ((Bool.and_eq_true _ _).mp hr).1
  | rest | expire | welcome | depart | rename | reenter | refuse | enter | exit => exact hr

theorem grounded_start (limits : Limits) (archive : Option Archive) (stamp : String) :
    (Hub.start limits archive stamp).ledger.Grounded :=
  ⟨List.nodup_nil, fun _ h => absurd h List.not_mem_nil, fun _ h => absurd h List.not_mem_nil⟩

theorem Step.limits_eq (hs : l.Step e k) : k.limits = l.limits := by
  cases hs <;> rfl

end Ledger

namespace Hub

variable {limits : Limits} {h : Hub} {id : SessionId}

theorem Reachable.grounded (hr : h.Reachable limits) : h.ledger.Grounded :=
  hr.ledger_induction (Ledger.grounded_start limits) Ledger.Grounded.step

theorem Reachable.limits_eq (hr : h.Reachable limits) : h.limits = limits :=
  hr.ledger_induction (P := fun l => l.limits = limits) (fun _ _ => rfl)
    fun hs h => hs.limits_eq.trans h

theorem exists_session_of_mem (hg : h.ledger.Grounded) (ha : id ∈ h.admitted) :
    ∃ s, h.session id = .ok s :=
  exists_session_iff.2 (hg.knows_iff.2 ha)

theorem running_of_session {s : Session} (hs : h.session id = .ok s) :
    h.ledger.running id = !s.stopped := Pool.view_of_get? (session_eq_ok_iff.1 hs).2

end Hub
end ChatRelay

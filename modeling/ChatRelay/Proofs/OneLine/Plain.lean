import ChatRelay.Proofs.Identity
import ChatRelay.Proofs.OneLine.Told

/-! Hubs in which the addresses of sessions and the times of day are one line each. Whatever else
happens to such a hub, all its sessions are known by one line. -/

namespace ChatRelay
namespace Hub

variable {limits : Limits} {h : Hub} {e : Event}

/-- An address or a time of day is one line; all else may be as it is. -/
def Event.Plain : Event → Prop
  | .create remoteId .. => OneLine remoteId
  | .tick stamp => OneLine stamp
  | _ => True

instance : DecidablePred Event.Plain
  | .create remoteId .. => inferInstanceAs (Decidable (OneLine remoteId))
  | .tick stamp => inferInstanceAs (Decidable (OneLine stamp))
  | .act .. | .expire _ | .request _ => .isTrue trivial

def Plain (limits : Limits) (h : Hub) : Prop :=
  ∃ archive stamp es, OneLine stamp ∧ (∀ e ∈ es, Event.Plain e) ∧
    (start limits archive stamp).feasible es ∧ (start limits archive stamp).run es = h

theorem Plain.reachable (hp : h.Plain limits) : h.Reachable limits := by
  obtain ⟨archive, stamp, es, -, -, hf, hr⟩ := hp
  exact ⟨archive, stamp, es, hf, hr⟩

theorem Plain.step (hp : h.Plain limits) (he : e.Plain) (ha : h.allows e) :
    (h.step e).Plain limits := by
  obtain ⟨archive, stamp, es, hs, hes, hf, rfl⟩ := hp
  refine ⟨archive, stamp, es ++ [e], hs, fun d hd => ?_, ?_, run_concat _ es e⟩
  · rcases List.mem_append.1 hd with hd | hd
    · exact hes d hd
    · exact List.mem_singleton.1 hd ▸ he
  · rw [feasible_append, hf, feasible, ha]
    rfl

structure Addressed (h : Hub) : Prop where
  remoteId : ∀ {i s}, h.pool.get? i = some s → OneLine s.remoteId
  stamp : OneLine h.stamp

theorem Addressed.update (ha : h.Addressed) (id : SessionId) {f : Session → Session}
    (hf : ∀ s, (f s).remoteId = s.remoteId) : (h.update id f).Addressed := by
  refine ⟨fun {i t} ht => ?_, ha.stamp⟩
  rw [Hub.update, Pool.get?_update] at ht
  split at ht
  · obtain ⟨s, hs, rfl⟩ := Option.map_eq_some_iff.1 ht
    rw [hf]
    exact ha.remoteId hs
  · exact ha.remoteId ht

theorem Addressed.step (ha : h.Addressed) (he : e.Plain) : (h.step e).Addressed := by
  cases e with
  | create remoteId transport capacity =>
    refine ⟨fun {i s} hs => ?_, ha.stamp⟩
    rw [Hub.step, Hub.create, Pool.get?_add] at hs
    split at hs
    · cases hs
      exact he
    · exact ha.remoteId hs
  | act id a =>
    refine ha.update id fun s => ?_
    rcases s.bare_act a with hb | hb
    · exact (congrArg Session.remoteId hb :)
    · exact (congrArg Session.remoteId hb :)
  | expire id => exact ha.update id fun _ => rfl
  | tick stamp => exact ⟨ha.remoteId, he⟩
  | request request =>
    -- whatever is said, nobody's address changes
    have hc : request.Clean (fun _ => True) h := by
      cases request <;> simp [Request.Clean]
    have hv : h.Voiced fun _ => True := fun _ _ _ =>
      ⟨trivial, fun _ => trivial, fun _ => trivial⟩
    obtain ⟨k, hk, htold⟩ := told_handle hv (fun _ => trivial) hc
    refine ⟨fun {i t} ht => ?_, ?_⟩
    · obtain ⟨s, hs, hst⟩ := htold.pool i t ht
      rw [hk.pool_eq] at hs
      exact hst.remoteId ▸ ha.remoteId hs
    · rw [Hub.step, htold.stamp, hk.stamp_eq]
      exact ha.stamp

theorem Plain.addressed (hp : h.Plain limits) : h.Addressed := by
  obtain ⟨archive, stamp, es, hs, hes, hf, rfl⟩ := hp
  refine prefix_induction (P := fun p => ((start limits archive stamp).run p).Addressed) hf
    ⟨fun h => (nomatch h), hs⟩ (fun p e hp _ ih => ?_) es (List.prefix_refl es)
  rw [run_concat]
  exact ih.step (hes e (hp.subset (List.mem_append_right p List.mem_cons_self)))

theorem Plain.voiced (hp : h.Plain limits) : h.Voiced OneLine := by
  intro i s hs
  have hv := hp.reachable.vetted i
  rw [show h.ledger.profile i = s.profile from Pool.view_of_get? hs] at hv
  exact ⟨hp.addressed.remoteId hs, fun hn => oneLine_of_flaw? (hv.nickname hn),
    fun hr => oneLine_of_flaw? (hv.room hr)⟩

theorem flaw?_of_holder? (hr : h.Reachable limits) {nickname : String} {holder : SessionId}
    (hh : h.holder? nickname = some holder) :
    Name.flaw? .nickname limits.nameLength nickname = none := by
  rw [holder?_eq, Ledger.holder?_eq_some_iff] at hh
  have hflaw := (hr.vetted holder).nickname (hr.indexed hh.1).2
  rwa [show h.ledger.limits = limits from hr.limits_eq] at hflaw

end Hub

end ChatRelay

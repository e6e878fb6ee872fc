import ChatRelay.Proofs.Ledger.Simulation

/-! All that one event can do to a ledger, with what must be so beforehand. What every such step
preserves holds of the ledger of a hub after every feasible run. -/

namespace ChatRelay
namespace Ledger

open Hub (Event)

inductive Step (l : Ledger) : Event → Ledger → Prop
  | rest (e : Event) : Step l e l
  | create (remoteId : String) (transport : Transport) (capacity : Nat) :
      Step l (.create remoteId transport capacity) l.create
  | stop (id : SessionId) (a : Session.Act) : Step l (.act id a) (l.stop id)
  | expire {id : SessionId} (out : id ∉ l.admitted) : Step l (.expire id) (l.expire id)
  | welcome {id : SessionId} (going : l.stopped = false) (known : id < l.size)
      (there : l.present id) (out : id ∉ l.admitted) :
      Step l (.request (.join id)) { l with admitted := l.admitted ++ [id] }
  | depart {id : SessionId} (known : l.knows id) : Step l (.request (.leave id)) (l.depart id)
  | rename {id : SessionId} {nickname : String} (claimed : l.claims id nickname) :
      Step l (.request (.register id nickname)) (l.rename id nickname)
  | reenter {id : SessionId} {name : String} (seeks : l.seeks id name)
      (listed : id ∈ (l.roomAt name).members) :
      Step l (.request (.joinRoom id name)) (l.seat id name (l.roomAt name))
  | refuse {id : SessionId} {name : String} (seeks : l.seeks id name)
      (full : (l.roomAt name).limit ≤ (l.roomAt name).members.length) :
      Step l (.request (.joinRoom id name))
        { l with rooms := l.settled name (l.roomAt name) }
  | enter {id : SessionId} {name : String} (seeks : l.seeks id name)
      (new : id ∉ (l.roomAt name).members)
      (space : (l.roomAt name).members.length < (l.roomAt name).limit) :
      Step l (.request (.joinRoom id name)) (l.seat id name
        { l.roomAt name with members := (l.roomAt name).members ++ [id] })
  | exit {id : SessionId} {name : String} (heard : l.hears id)
      (here : (l.profile id).room = some name) :
      Step l (.request (.leaveRoom id name)) (l.evict id name)
  | halt (going : l.stopped = false) : Step l (.request .shutDown) l.halt

variable (l : Ledger)

theorem step_join {id : SessionId} (hp : id < l.size → l.present id) :
    Step l (.request (.join id)) (l.join id) := by
  unfold join
  split
  · exact .rest _
  · next hc =>
    rw [not_or, not_or, Nat.not_le, Bool.not_eq_true] at hc
    exact .welcome hc.1 hc.2.1 (hp hc.2.1) hc.2.2

theorem step_leave (id : SessionId) : Step l (.request (.leave id)) (l.leave id) := by
  unfold leave
  split
  · next hk => exact .depart hk
  · exact .rest _

theorem step_register (id : SessionId) (nickname : String) :
    Step l (.request (.register id nickname)) (l.register id nickname) := by
  unfold register
  split
  · next hc => exact .rename hc
  · exact .rest _

theorem step_joinRoom (id : SessionId) (name : String) :
    Step l (.request (.joinRoom id name)) (l.joinRoom id name) := by
  unfold joinRoom
  dsimp only
  by_cases hs : l.seeks id name
  · rw [if_pos hs]
    by_cases hc : (l.roomAt name).contains id
    · rw [if_pos hc]
      exact .reenter hs (Room.contains_iff.1 hc)
    · rw [if_neg hc]
      by_cases hl : (l.roomAt name).limit ≤ (l.roomAt name).members.length
      · rw [if_pos hl]
        exact .refuse hs hl
      · rw [if_neg hl]
        exact .enter hs (mt Room.contains_iff.2 hc) (Nat.lt_of_not_le hl)
  · rw [if_neg hs]
    exact .rest _

theorem step_leaveRoom (id : SessionId) (name : String) :
    Step l (.request (.leaveRoom id name)) (l.leaveRoom id name) := by
  unfold leaveRoom
  split
  · next hc => exact .exit hc.1 hc.2
  · exact .rest _

theorem step_shutDown : Step l (.request .shutDown) l.shutDown := by
  unfold shutDown
  cases hs : l.stopped
  · exact .halt hs
  · exact .rest _

theorem step_handle (request : Request)
    (hj : ∀ id, request = .join id → id < l.size → l.present id) :
    Step l (.request request) (l.handle request) := by
  cases request with
  | join id => exact l.step_join (hj id rfl)
  | leave id => exact l.step_leave id
  | register id nickname => exact l.step_register id nickname
  | joinRoom id room => exact l.step_joinRoom id room
  | leaveRoom id room => exact l.step_leaveRoom id room
  | shutDown => exact l.step_shutDown
  | _ => exact .rest _

end Ledger

namespace Hub

theorem ledger_step {h : Hub} {e : Event} (he : h.allows e) :
    h.ledger.Step e (h.step e).ledger := by
  cases e with
  | create remoteId transport capacity =>
    rw [step, ledger_create]
    exact .create remoteId transport capacity
  | act id a =>
    obtain ha | ha := ledger_act (h := h) id a
    · rw [step, ha]
      exact .rest _
    · rw [step, ha]
      exact .stop id a
  | expire id =>
    rw [step, ledger_expire]
    refine .expire fun hi => ?_
    rw [allows, Bool.not_eq_true', ← Bool.not_eq_true] at he
    exact he (List.contains_iff_mem.2 hi)
  | tick stamp => exact .rest _
  | request request =>
    rw [step, ledger_handle]
    refine Ledger.step_handle _ request fun id hr hlt => ?_
    subst hr
    obtain ⟨s, hs⟩ := Option.isSome_iff_exists.1 (Pool.isSome_get?_iff.2 hlt)
    rw [show h.ledger.present id = !s.expired from Pool.view_of_get? hs]
    simpa [allows, hs] using he

theorem Reachable.ledger_induction {P : Ledger → Prop} {limits : Limits} {h : Hub}
    (hr : h.Reachable limits) (h0 : ∀ archive stamp, P (start limits archive stamp).ledger)
    (hstep : ∀ {l e k}, Ledger.Step l e k → P l → P k) : P h.ledger := by
  obtain ⟨archive, stamp, es, hf, rfl⟩ := hr
  exact run_induction hf (h0 archive stamp) fun _ _ he hp => hstep (ledger_step he) hp

end Hub
end ChatRelay

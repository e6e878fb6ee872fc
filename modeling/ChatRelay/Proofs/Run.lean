import ChatRelay.Hub.Request
import Mathlib.Data.List.Induction

/-! What can happen to a hub, one thing after the other: sessions come into being and are let go,
whoever holds one acts on it, time passes, and requests are handled. A run is a list of such
events, in any order that ownership allows. -/

namespace ChatRelay
namespace Session

inductive Act
  | offer (text : String)
  | take
  | closeAfterFlush
  | stop
  | shut
  | abandon
  deriving DecidableEq, Repr

def act (s : Session) : Act → Session
  | .offer text => s.offer text
  | .take =>
    match s.outbox.take? with
    | some (_, outbox) => { s with outbox }
    | none => s
  | .closeAfterFlush => s.closeAfterFlush
  | .stop => s.stop
  | .shut => { s with outbox := s.outbox.shut }
  | .abandon => { s with outbox := s.outbox.abandon }

end Session

namespace Hub

inductive Event
  | create (remoteId : String) (transport : Transport) (capacity : Nat)
  | act (id : SessionId) (act : Session.Act)
  | expire (id : SessionId)
  | tick (stamp : String)
  | request (request : Request)
  deriving DecidableEq, Repr

def step (h : Hub) : Event → Hub
  | .create remoteId transport capacity => h.create (.create remoteId transport capacity)
  | .act id act => h.update id (·.act act)
  | .expire id => h.update id (·.expire)
  | .tick stamp => { h with stamp }
  | .request request => (h.handle request).2

def run (h : Hub) : List Event → Hub
  | [] => h
  | e :: es => (h.step e).run es

def Event.joined? : Event → Option SessionId
  | .request (.join id) => some id
  | _ => none

theorem Event.joined?_eq_some_iff {e : Event} {id : SessionId} :
    e.joined? = some id ↔ e = .request (.join id) := by
  constructor
  · intro hj
    unfold joined? at hj
    split at hj
    · rw [Option.some.inj hj]
    · cases hj
  · rintro rfl
    rfl

def joined (es : List Event) : List SessionId := es.filterMap Event.joined?

/-- The hub owns whom it admitted, and only a session that somebody still owns can be joined. -/
def allows (h : Hub) : Event → Bool
  | .expire id => !h.admitted.contains id
  | .request (.join id) => (h.pool.get? id).all (!·.expired)
  | _ => true

def feasible (h : Hub) : List Event → Bool
  | [] => true
  | e :: es => h.allows e && (h.step e).feasible es

theorem run_append (h : Hub) (as bs : List Event) : h.run (as ++ bs) = (h.run as).run bs := by
  induction as generalizing h with
  | nil => rfl
  | cons e es ih => simpa only [List.cons_append, run] using ih (h.step e)

theorem run_concat (h : Hub) (es : List Event) (e : Event) :
    h.run (es ++ [e]) = (h.run es).step e := by
  simp only [run_append, run]

theorem feasible_append (h : Hub) (as bs : List Event) :
    h.feasible (as ++ bs) = (h.feasible as && (h.run as).feasible bs) := by
  induction as generalizing h with
  | nil => rfl
  | cons e es ih => simp only [List.cons_append, feasible, run, ih, Bool.and_assoc]

theorem feasible_before {h : Hub} {as bs : List Event} (hf : h.feasible bs) (hp : as <+: bs) :
    h.feasible as := by
  obtain ⟨cs, rfl⟩ := hp
  rw [feasible_append, Bool.and_eq_true] at hf
  exact hf.1

theorem run_induction {P : Hub → Prop} {h : Hub} {es : List Event} (hf : h.feasible es) (h0 : P h)
    (hstep : ∀ h e, h.allows e → P h → P (h.step e)) : P (h.run es) := by
  induction es generalizing h with
  | nil => exact h0
  | cons e es ih =>
    rw [feasible, Bool.and_eq_true] at hf
    exact ih hf.2 (hstep h e hf.1 h0)

theorem prefix_induction {P : List Event → Prop} {h : Hub} {es : List Event} (hf : h.feasible es)
    (h0 : P [])
    (hstep : ∀ p e, p ++ [e] <+: es → (h.run p).allows e → P p → P (p ++ [e])) :
    ∀ p, p <+: es → P p := by
  intro p
  -- from the right, so that what happened so far is what the last event finds
  induction p using List.reverseRecOn with
  | nil => exact fun _ => h0
  | append_singleton p e ih =>
    intro hp
    have he := feasible_before hf hp
    rw [feasible_append, Bool.and_eq_true] at he
    refine hstep p e hp ?_ (ih ((List.prefix_append p [e]).trans hp))
    simpa only [feasible, Bool.and_true] using he.2

/-- What a feasible run makes of a new hub. -/
def Reachable (limits : Limits) (h : Hub) : Prop :=
  ∃ archive stamp es, (start limits archive stamp).feasible es ∧
    (start limits archive stamp).run es = h

theorem reachable_run {limits : Limits} {archive : Option Archive} {stamp : String}
    {es : List Event} (hf : (start limits archive stamp).feasible es) :
    ((start limits archive stamp).run es).Reachable limits := ⟨archive, stamp, es, hf, rfl⟩

theorem Reachable.step {limits : Limits} {h : Hub} {e : Event} (hr : h.Reachable limits)
    (he : h.allows e) : (h.step e).Reachable limits := by
  obtain ⟨archive, stamp, es, hf, rfl⟩ := hr
  refine ⟨archive, stamp, es ++ [e], ?_, run_concat _ es e⟩
  rw [feasible_append, hf, feasible, he]
  rfl

theorem Reachable.run {limits : Limits} {h : Hub} {es : List Event} (hr : h.Reachable limits)
    (hf : h.feasible es) : (h.run es).Reachable limits :=
  run_induction hf hr fun _ _ he hr => hr.step he

theorem joined_concat (es : List Event) (e : Event) :
    joined (es ++ [e]) = joined es ++ e.joined?.toList := by
  unfold joined
  rw [List.filterMap_append]
  cases he : e.joined? <;> simp [he]

theorem not_joined_before {es p : List Event} {id : SessionId} (once : (joined es).Nodup)
    (hp : p ++ [.request (.join id)] <+: es) : id ∉ joined p := by
  have hn : (joined (p ++ [.request (.join id)])).Nodup := once.sublist (hp.sublist.filterMap _)
  rw [joined_concat] at hn
  exact fun hi => (List.nodup_append.1 hn).2.2 id hi id (List.mem_singleton_self id) rfl

end Hub
end ChatRelay

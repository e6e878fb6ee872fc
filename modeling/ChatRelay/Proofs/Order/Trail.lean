import ChatRelay.Proofs.Nicknames
import ChatRelay.Proofs.Order.Parcels
import Mathlib.Data.List.Sort

/-! One order for all. A run leaves a trail: the fan-outs are numbered as the hub makes them, and
what goes onto a queue keeps its number until it is taken off. Every queue has the numbers in their
order, so that two sessions never disagree about which of two fan-outs came first. -/

namespace ChatRelay

open Hub (Event joined)

/-- What was ever put onto a queue, what is in it, and what was taken off it. -/
structure Bag where
  sent : List Parcel
  queued : List Parcel
  received : List Parcel

namespace Bag

def put (b : Bag) (parcels : List Parcel) : Bag :=
  { b with sent := b.sent ++ parcels, queued := b.queued ++ parcels }

def take (b : Bag) : Bag :=
  { b with queued := b.queued.tail, received := b.received ++ b.queued.head?.toList }

def lose (b : Bag) : Bag := { b with queued := [] }

structure Tallies (b : Bag) (queue taken : List Outgoing) : Prop where
  queued : b.queued.map Parcel.item = queue
  received : b.received.map Parcel.item = taken
  kept : (b.received ++ b.queued).Sublist b.sent

variable {b : Bag} {queue taken : List Outgoing}

theorem Tallies.put (h : b.Tallies queue taken) (parcels : List Parcel) :
    (b.put parcels).Tallies (queue ++ parcels.map Parcel.item) taken where
  queued := by rw [Bag.put, List.map_append, h.queued]
  received := h.received
  kept := by
    rw [Bag.put, ← List.append_assoc]
    exact h.kept.append (List.Sublist.refl parcels)

theorem Tallies.take (h : b.Tallies queue taken) :
    b.take.Tallies queue.tail (taken ++ queue.head?.toList) := by
  obtain ⟨rfl, rfl, hkept⟩ := h
  unfold Bag.take
  cases hb : b.queued with
  | nil =>
    rw [hb] at hkept
    exact ⟨rfl, List.map_append, by rwa [List.append_assoc]⟩
  | cons p ps =>
    rw [hb] at hkept
    exact ⟨rfl, List.map_append, by rwa [List.append_assoc]⟩

theorem Tallies.lose (h : b.Tallies queue taken) : b.lose.Tallies [] taken where
  queued := rfl
  received := h.received
  kept := by
    rw [Bag.lose, List.append_nil]
    exact (List.sublist_append_left b.received b.queued).trans h.kept

end Bag

namespace Parcel

variable {p q : Parcel}

theorem precedes_of (h : ∀ m, p.number? = some m →
    q.source ≠ .welcome ∧ ∀ n, q.number? = some n → m < n) : p.Precedes q := by
  obtain ⟨ps, item⟩ := p
  obtain ⟨qs, item'⟩ := q
  cases ps with
  | fanOut m =>
    obtain ⟨hwelcome, hless⟩ := h m rfl
    cases qs with
    | fanOut n => exact hless n rfl
    | welcome => exact absurd rfl hwelcome
    | aside => trivial
  | welcome | aside => trivial

theorem number?_eq_some_iff {n : Nat} : p.number? = some n ↔ p.source = .fanOut n := by
  unfold number?
  split
  · next hs => rw [hs, Option.some.injEq, Source.fanOut.injEq]
  all_goals
    next hs =>
    rw [hs]
    exact ⟨nofun, nofun⟩

theorem pairwise_numbers {ps : List Parcel} (h : ps.Pairwise Precedes) :
    (ps.filterMap number?).Pairwise (· < ·) := by
  refine h.filterMap _ fun p q hpq m hm n hn => ?_
  rw [number?_eq_some_iff] at hm hn
  unfold Precedes at hpq
  rwa [hm, hn] at hpq

end Parcel

/-- A run so far, with what is not seen of it: the fan-outs in their order, and for every session
its bag, and what was taken off its queue. -/
structure Trail where
  hub : Hub
  fanOuts : List FanOut
  bag : SessionId → Bag
  taken : SessionId → List Outgoing

namespace Trail

def step (t : Trail) (e : Event) : Trail where
  hub := t.hub.step e
  fanOuts := t.fanOuts ++ t.hub.fanOuts e
  bag o :=
    if e = .act o .take then (t.bag o).take
    else if e = .act o .abandon then (t.bag o).lose
    else (t.bag o).put (t.hub.puts t.fanOuts.length o e)
  taken o := t.taken o ++ if e = .act o .take then (t.hub.queue o).head?.toList else []

def heard (t : Trail) (o : SessionId) : List Nat := (t.bag o).received.filterMap Parcel.number?

end Trail

namespace Hub

def trail (h : Hub) (es : List Event) : Trail :=
  es.foldl Trail.step ⟨h, [], fun _ => ⟨[], [], []⟩, fun _ => []⟩

theorem trail_concat (h : Hub) (es : List Event) (e : Event) :
    h.trail (es ++ [e]) = (h.trail es).step e := List.foldl_concat _ _ _ _

theorem hub_trail (h : Hub) (es : List Event) : (h.trail es).hub = h.run es := by
  induction es using List.reverseRecOn with
  | nil => rfl
  | append_singleton es e ih =>
    rw [trail_concat, run_concat, ← ih]
    rfl

end Hub

namespace Trail

structure Ordered (t : Trail) (o : SessionId) : Prop where
  tallies : (t.bag o).Tallies (t.hub.queue o) (t.taken o)
  carried : ∀ p ∈ (t.bag o).sent, ∀ n, p.number? = some n → ∃ f, t.fanOuts[n]? = some f ∧
    p.item = .text f.notice.message.text ∧ f.notice.audience o ∧ f.sender ≠ some o
  ordered : (t.bag o).sent.Pairwise Parcel.Precedes

variable {t : Trail} {o : SessionId} {e : Event} {es : List Event} {limits : Limits}
  {archive : Option Archive} {stamp : String}

theorem sent_step (t : Trail) (e : Event) (o : SessionId) : ((t.step e).bag o).sent =
    (t.bag o).sent ++ t.hub.puts t.fanOuts.length o e := by
  have hnothing : ∀ a : Session.Act, (∀ s : Session, s.adds a = []) →
      t.hub.puts t.fanOuts.length o (.act o a) = [] := by
    intro a ha
    rw [Hub.puts, if_pos rfl]
    cases t.hub.pool.get? o with
    | none => rfl
    | some s => rw [Option.elim_some, ha, List.map_nil]
  unfold step
  dsimp only
  split
  · next htake =>
    rw [htake, hnothing _ fun _ => rfl, List.append_nil]
    rfl
  · split
    · next hlose =>
      rw [hlose, hnothing _ fun _ => rfl, List.append_nil]
      rfl
    · rfl

namespace Ordered

theorem number_lt (ht : t.Ordered o) {p : Parcel} (hp : p ∈ (t.bag o).sent) {n : Nat}
    (hn : p.number? = some n) : n < t.fanOuts.length := by
  obtain ⟨f, hf, -⟩ := ht.carried p hp n hn
  exact (List.getElem?_eq_some_iff.1 hf).1

theorem ordered_step (ht : t.Ordered o) (hg : t.hub.ledger.Grounded) (hh : t.hub.ledger.Housed)
    (fresh : e.joined? = some o → ∀ p ∈ (t.bag o).sent, p.number? = none) :
    ((t.step e).bag o).sent.Pairwise Parcel.Precedes := by
  rw [sent_step]
  refine List.pairwise_append.2 ⟨ht.ordered, t.hub.pairwise_puts _ o e, fun p hp q hq => ?_⟩
  refine Parcel.precedes_of fun m hm => ?_
  cases Hub.put_of_mem hg hh hq with
  | alone number joins =>
    refine ⟨fun hwelcome => ?_, fun n hn => ?_⟩
    · have hnone := fresh (joins hwelcome) p hp
      rw [hm] at hnone
      cases hnone
    · rw [number] at hn
      cases hn
  | shared source =>
    refine ⟨fun hwelcome => ?_, fun n hn => ?_⟩
    · rw [source] at hwelcome
      cases hwelcome
    · rw [Parcel.number?_eq_some_iff, source, Source.fanOut.injEq] at hn
      have hlt := ht.number_lt hp hm
      omega

theorem carried_step (ht : t.Ordered o) (hg : t.hub.ledger.Grounded) (hh : t.hub.ledger.Housed) :
    ∀ p ∈ ((t.step e).bag o).sent, ∀ n, p.number? = some n →
      ∃ f, (t.step e).fanOuts[n]? = some f ∧ p.item = .text f.notice.message.text ∧
        f.notice.audience o ∧ f.sender ≠ some o := by
  intro p hp n hn
  rw [sent_step] at hp
  rcases List.mem_append.1 hp with hold | hnew
  · obtain ⟨f, hf, hparcel⟩ := ht.carried p hold n hn
    refine ⟨f, ?_, hparcel⟩
    rw [step, List.getElem?_append_left (ht.number_lt hold hn), hf]
  · cases Hub.put_of_mem hg hh hnew with
    | alone number =>
      rw [number] at hn
      cases hn
    | @shared i f source made text meant sender =>
      rw [Parcel.number?_eq_some_iff, source, Source.fanOut.injEq] at hn
      have hf : (t.step e).fanOuts[n]? = some f := by
        rw [step, ← hn, List.getElem?_append_right (Nat.le_add_right _ i), Nat.add_sub_cancel_left,
          made]
      exact ⟨f, hf, text, meant, sender⟩

theorem tallies_step (ht : t.Ordered o) (e : Event) :
    ((t.step e).bag o).Tallies ((t.step e).hub.queue o) ((t.step e).taken o) := by
  unfold step
  dsimp only
  by_cases htake : e = .act o .take
  · rw [if_pos htake, if_pos htake, htake, Hub.queue_take]
    exact ht.tallies.take
  · rw [if_neg htake, if_neg htake, List.append_nil]
    by_cases hlose : e = .act o .abandon
    · rw [if_pos hlose, hlose, Hub.queue_abandon]
      exact ht.tallies.lose
    · rw [if_neg hlose, t.hub.queue_step t.fanOuts.length htake hlose]
      exact ht.tallies.put _

protected theorem step (ht : t.Ordered o) (hg : t.hub.ledger.Grounded) (hh : t.hub.ledger.Housed)
    (fresh : e.joined? = some o → ∀ p ∈ (t.bag o).sent, p.number? = none) :
    (t.step e).Ordered o where
  tallies := ht.tallies_step e
  carried := ht.carried_step hg hh
  ordered := ht.ordered_step hg hh fresh

end Ordered

theorem untold_step (hg : t.hub.ledger.Grounded) (hh : t.hub.ledger.Housed)
    (out : o ∉ t.hub.admitted) (hj : e.joined? ≠ some o)
    (untold : ∀ p ∈ (t.bag o).sent, p.number? = none) :
    ∀ p ∈ ((t.step e).bag o).sent, p.number? = none := by
  intro p hp
  rw [sent_step] at hp
  rcases List.mem_append.1 hp with hold | hnew
  · exact untold p hold
  · cases Hub.put_of_mem hg hh hnew with
    | alone number => exact number
    | shared _ _ _ _ _ there => exact (there.elim out hj).elim

theorem ordered_start {h : Hub} (empty : h.queue o = []) : (h.trail []).Ordered o where
  tallies := ⟨empty.symm, rfl, List.Sublist.refl []⟩
  carried := nofun
  ordered := List.Pairwise.nil

theorem ordered_run (hf : (Hub.start limits archive stamp).feasible es) (once : (joined es).Nodup)
    (o : SessionId) : ((Hub.start limits archive stamp).trail es).Ordered o := by
  have hboth : ∀ p, p <+: es → ((Hub.start limits archive stamp).trail p).Ordered o ∧
      (o ∉ joined p →
        ∀ q ∈ (((Hub.start limits archive stamp).trail p).bag o).sent, q.number? = none) := by
    refine Hub.prefix_induction hf ⟨ordered_start rfl, fun _ => nofun⟩ ?_
    rintro p e hp - ⟨hordered, untold⟩
    have hfeasible := Hub.feasible_before hf ((List.prefix_append p [e]).trans hp)
    have hreach := Hub.reachable_run hfeasible
    have hg := hreach.grounded
    have hh := hreach.housed
    have hfresh := Hub.fresh_run hfeasible o
    rw [← Hub.hub_trail] at hg hh hfresh
    rw [Hub.trail_concat]
    refine ⟨hordered.step hg hh fun hj => untold ?_, fun hout => ?_⟩
    · rw [Hub.Event.joined?_eq_some_iff] at hj
      subst hj
      exact Hub.not_joined_before once hp
    · rw [Hub.joined_concat, List.mem_append, not_or, Option.mem_toList] at hout
      exact untold_step hg hh (hfresh hout.1).1 hout.2 (untold hout.1)
  exact (hboth es List.prefix_rfl).1

theorem pairwise_heard (ht : t.Ordered o) : (t.heard o).Pairwise (· < ·) := by
  have hreceived : (t.bag o).received.Sublist (t.bag o).sent :=
    (List.sublist_append_left _ _).trans ht.tallies.kept
  exact Parcel.pairwise_numbers (ht.ordered.sublist hreceived)

/-- All sessions agree on the order of the fan-outs. -/
structure Agreed (t : Trail) : Prop where
  ordered : ∀ o, t.Ordered o
  once : ∀ o n, (t.bag o).sent.countP (·.number? == some n) ≤ 1
  leaving : ∀ o, (t.heard o).Pairwise (· < ·)
  alike : ∀ o o', (t.heard o).filter (· ∈ t.heard o') = (t.heard o').filter (· ∈ t.heard o)

theorem fanOuts_agreed (hf : (Hub.start limits archive stamp).feasible es)
    (once : (joined es).Nodup) :
    ((Hub.start limits archive stamp).trail es).hub = (Hub.start limits archive stamp).run es ∧
      ((Hub.start limits archive stamp).trail es).Agreed := by
  have hordered := ordered_run hf once
  have hleaving := fun o => pairwise_heard (hordered o)
  refine ⟨Hub.hub_trail _ es, hordered, fun o n => ?_, hleaving, fun o o' => ?_⟩
  · have hnodup := (Parcel.pairwise_numbers (hordered o).ordered).nodup
    rw [← List.count_filterMap]
    exact List.nodup_iff_count_le_one.1 hnodup n
  · refine ((hleaving o).filter _).eq_of_mem_iff ((hleaving o').filter _) fun n => ?_
    simp only [List.mem_filter, decide_eq_true_iff]
    exact and_comm

def crossing : List Event :=
  [.create "a" .line 16, .create "b" .line 8, .create "c" .line 16, .request (.join 0),
    .request (.join 1), .act 0 (.offer "hm"), .request (.join 2), .request (.joinRoom 0 "r"),
    .request (.joinRoom 1 "r"), .request (.chat 2 "hi"), .request (.register 2 "z"),
    .request (.chat 0 "ho"), .request (.leave 2)] ++
    List.replicate 16 (.act 0 .take) ++ List.replicate 8 (.act 1 .take)

theorem fanOuts_agreed_crossing :
    (Hub.start .standard none "").feasible crossing ∧ (joined crossing).Nodup ∧
      ((Hub.start .standard none "").trail crossing).Agreed ∧
      ((Hub.start .standard none "").trail crossing).heard 0 = [0, 1, 2, 4, 5, 6, 8] ∧
      ((Hub.start .standard none "").trail crossing).heard 1 = [1, 2, 5] := by
  have hf : (Hub.start .standard none "").feasible crossing := by decide +kernel
  have once : (joined crossing).Nodup := by decide
  exact ⟨hf, once, (fanOuts_agreed hf once).2, by decide +kernel, by decide +kernel⟩

end Trail
end ChatRelay

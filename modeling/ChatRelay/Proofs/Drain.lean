import ChatRelay.Proofs.Membership
import ChatRelay.Proofs.Nicknames

/-! The count of a shutdown. It is the number of sessions that are still admitted, for nobody is
admitted any more and everybody counts once on leaving. When it is zero nothing refers to anybody,
and whoever waited for that can be told. -/

namespace ChatRelay

namespace Registry

theorem entries_eq_nil {κ ν : Type} [DecidableEq κ] {r : Registry κ ν}
    (h : ∀ key, r.get? key = none) : r.entries = [] := by
  cases he : r.entries with
  | nil => rfl
  | cons e es =>
    have hget := h e.1
    rw [get?, he, List.lookup_cons_self] at hget
    cases hget

end Registry

namespace Wait

variable {κ : Type} {b : Barrier} {dropped : Bool} {now : Nat}

theorem remaining_of_verdict {w : Wait κ} {report : Report}
    (h : w.verdict b dropped now = some report) : report.remaining = b.remaining := by
  unfold verdict at h
  split at h
  · cases h
    rfl
  · split at h
    · cases h
      rfl
    · cases h

theorem remaining_of_settle {ws : List (Wait κ)} {key : κ} {report : Report}
    (h : (key, report) ∈ (settle ws b dropped now).1) : report.remaining = b.remaining := by
  obtain ⟨w, -, hw⟩ := List.mem_filterMap.1 h
  obtain ⟨r, hr, he⟩ := Option.map_eq_some_iff.1 hw
  cases he
  exact remaining_of_verdict hr

end Wait

namespace Ledger

variable {l k : Ledger} {e : Hub.Event} {id : SessionId} {b : Barrier}

theorem Step.counts (hs : l.Step e k) (hb : l.barrier = some b)
    (stays : ∀ id, e ≠ .request (.leave id)) :
    k.barrier = some b ∧ k.admitted = l.admitted := by
  have hstopped : l.stopped = true := by rw [stopped, hb]; rfl
  cases hs with
  | welcome going => exact absurd going (by rw [hstopped]; exact Bool.noConfusion)
  | halt going => exact absurd going (by rw [hstopped]; exact Bool.noConfusion)
  | depart => exact absurd rfl (stays _)
  | rest | create | stop | expire | rename | reenter | refuse | enter | exit => exact ⟨hb, rfl⟩

theorem Step.going (hs : l.Step e k) (hb : l.barrier = none) (he : e ≠ .request .shutDown) :
    k.barrier = none := by
  cases hs with
  | depart =>
    show l.barrier.map _ = none
    rw [hb, Option.map_none]
  | halt => exact absurd rfl he
  | rest | create | stop | expire | welcome | rename | reenter | refuse | enter | exit => exact hb

theorem length_depart (hg : l.Grounded) (ha : id ∈ l.admitted) :
    (l.depart id).admitted.length + 1 = l.admitted.length := (hg.perm_cons ha).length_eq.symm

theorem nothing_left (hi : l.Indexed) (hh : l.Housed) (hnone : l.admitted = []) :
    l.nicknames.entries = [] ∧ l.rooms.entries = [] := by
  have hout : ∀ {i}, i ∉ l.admitted := by
    rw [hnone]
    exact List.not_mem_nil
  refine ⟨Registry.entries_eq_nil fun n => ?_, Registry.entries_eq_nil fun n => ?_⟩
  · cases hn : l.nicknames.get? n with
    | none => rfl
    | some i => exact absurd (hi hn).1 hout
  · cases hr : l.rooms.get? n with
    | none => rfl
    | some room =>
      obtain ⟨i, hi⟩ := List.exists_mem_of_ne_nil _ (hh.orderly hr).inhabited
      exact absurd (hh.listed hr hi).1 hout

end Ledger

namespace Hub

variable {h : Hub} {b : Barrier}

def departs (h : Hub) : Event → Bool
  | .request (.leave id) => (h.session id).toBool
  | _ => false

def departures (h : Hub) : List Event → Nat
  | [] => 0
  | e :: es => (h.departs e).toNat + (h.step e).departures es

theorem departs_leave (id : SessionId) : h.departs (.request (.leave id)) = h.ledger.knows id := by
  rw [Bool.eq_iff_iff, ← exists_session_iff, departs]
  cases h.session id <;> simp [Except.toBool]

theorem departs_eq_false {e : Event} (stays : ∀ id, e ≠ .request (.leave id)) :
    h.departs e = false := by
  unfold departs
  split
  · next id => exact absurd rfl (stays id)
  · rfl

theorem barrier_step {e : Event} (he : h.allows e) (hg : h.ledger.Grounded)
    (hb : h.barrier = some b) :
    (h.step e).barrier = some (if h.departs e then b.arrive else b) ∧
      (h.step e).admitted.length + (h.departs e).toNat = h.admitted.length := by
  by_cases stays : ∀ id, e ≠ .request (.leave id)
  · obtain ⟨hbarrier, hadmitted⟩ := (ledger_step he).counts hb stays
    rw [departs_eq_false stays]
    exact ⟨hbarrier, congrArg List.length hadmitted⟩
  · simp only [not_forall, not_not] at stays
    obtain ⟨id, rfl⟩ := stays
    have hl : (h.step (.request (.leave id))).ledger = h.ledger.leave id := ledger_leave id
    have hbarrier := congrArg Ledger.barrier hl
    have hadmitted := congrArg Ledger.admitted hl
    rw [departs_leave]
    unfold Ledger.leave at hbarrier hadmitted
    cases hk : h.ledger.knows id with
    | true =>
      rw [hk, if_pos rfl] at hbarrier hadmitted
      have hlength := Ledger.length_depart hg (hg.knows_iff.1 hk)
      rw [← hadmitted] at hlength
      have harrive : (h.ledger.depart id).barrier = h.barrier.map (·.arrive) := rfl
      rw [harrive, hb] at hbarrier
      exact ⟨hbarrier, hlength⟩
    | false =>
      rw [hk, if_neg Bool.false_ne_true] at hbarrier hadmitted
      exact ⟨hbarrier.trans hb, congrArg List.length hadmitted⟩

theorem barrier_run {es : List Event} (hf : h.feasible es) (hg : h.ledger.Grounded)
    (hb : h.barrier = some b) (hr : b.remaining = h.admitted.length) :
    ∃ b', (h.run es).barrier = some b' ∧ b'.total = b.total ∧
      b'.remaining = (h.run es).admitted.length ∧ b'.remaining + h.departures es = b.remaining := by
  -- the count is that of the admitted sessions, so that nobody who leaves finds it at zero
  induction es generalizing h b with
  | nil => exact ⟨b, hb, rfl, hr, rfl⟩
  | cons e es ih =>
    rw [feasible, Bool.and_eq_true] at hf
    obtain ⟨he, hf⟩ := hf
    obtain ⟨hbarrier, hlength⟩ := barrier_step he hg hb
    have hg' : (h.step e).ledger.Grounded := hg.step (ledger_step he)
    rw [run, departures]
    cases hd : h.departs e with
    | false =>
      rw [hd, if_neg Bool.false_ne_true] at hbarrier
      rw [hd, Bool.toNat_false, Nat.add_zero] at hlength
      obtain ⟨b', hb', htotal, hremaining, hsum⟩ := ih hf hg' hbarrier (hr.trans hlength.symm)
      exact ⟨b', hb', htotal, hremaining, by rw [Bool.toNat_false, Nat.zero_add, hsum]⟩
    | true =>
      rw [hd, if_pos rfl] at hbarrier
      rw [hd, Bool.toNat_true] at hlength
      have hr' : b.arrive.remaining = (h.step e).admitted.length := by
        rw [show b.arrive.remaining = b.remaining - 1 from rfl, hr, ← hlength, Nat.add_sub_cancel]
      obtain ⟨b', hb', htotal, hremaining, hsum⟩ := ih hf hg' hbarrier hr'
      refine ⟨b', hb', htotal, hremaining, ?_⟩
      rw [hr'] at hsum
      rw [Bool.toNat_true, hr, ← hlength, ← hsum]
      omega

def Deserted (h : Hub) : Prop :=
  h.admitted = [] ∧ h.nicknames.entries = [] ∧ h.rooms.entries = []

/-- A hub in the course of a shutdown that found `total` sessions admitted. -/
structure Draining (total : Nat) (b : Barrier) (h : Hub) : Prop where
  barrier : h.barrier = some b
  total_eq : b.total = total
  remaining_eq : b.remaining = h.admitted.length
  again : h.handle .shutDown = (.ok .done, h)
  counted : ∀ {id s}, h.session id = .ok s →
    (h.leave id).barrier = some b.arrive ∧ b.arrive.remaining + 1 = b.remaining
  uncounted : ∀ {id fault}, h.session id = .error fault → h.leave id = h
  deserted : b.remaining = 0 → h.Deserted
  reported : ∀ {κ : Type} {waits : List (Wait κ)} {dropped : Bool} {now : Nat} {key : κ}
    {report : Report}, (key, report) ∈ (Wait.settle waits b dropped now).1 →
      report.timedOut = false → report.remaining = 0 → h.Deserted

theorem draining_of {total : Nat} (hg : h.ledger.Grounded) (hi : h.ledger.Indexed)
    (hh : h.ledger.Housed) (hb : h.barrier = some b) (htotal : b.total = total)
    (hr : b.remaining = h.admitted.length) : Draining total b h := by
  have hdeserted : b.remaining = 0 → h.Deserted := by
    intro hzero
    have hnone : h.admitted = [] := List.eq_nil_of_length_eq_zero (hr.symm.trans hzero)
    exact ⟨hnone, Ledger.nothing_left hi hh hnone⟩
  refine ⟨hb, htotal, hr, ?_, ?_, ?_, hdeserted, ?_⟩
  · rw [handle, shutDown, hb]
  · intro id s hs
    have hd : h.departs (.request (.leave id)) = true := by
      rw [departs, hs]
      rfl
    have hallowed : h.allows (.request (.leave id)) = true := rfl
    obtain ⟨hbarrier, hlength⟩ := barrier_step hallowed hg hb
    rw [hd, if_pos rfl] at hbarrier
    rw [hd, Bool.toNat_true, ← hr] at hlength
    refine ⟨hbarrier, ?_⟩
    rw [show b.arrive.remaining = b.remaining - 1 from rfl, ← hlength, Nat.add_sub_cancel]
  · intro id fault hs
    rw [leave, hs]
  · intro κ waits dropped now key report hreport _ hzero
    exact hdeserted ((Wait.remaining_of_settle hreport).symm.trans hzero)

theorem going_run {es : List Event} (hf : h.feasible es) (hb : h.barrier = none)
    (first : .request .shutDown ∉ es) : (h.run es).barrier = none := by
  induction es generalizing h with
  | nil => exact hb
  | cons e es ih =>
    rw [feasible, Bool.and_eq_true] at hf
    rw [List.mem_cons, not_or] at first
    exact ih hf.2 ((ledger_step hf.1).going hb (Ne.symm first.1)) first.2

variable {limits : Limits} {archive : Option Archive} {stamp : String} {before after : List Event}

/-- From the first shutdown on, the count is that of the admitted sessions, and it lost nobody who
left since. -/
theorem draining_run
    (hf : (start limits archive stamp).feasible (before ++ .request .shutDown :: after))
    (first : .request .shutDown ∉ before) :
    ∃ b, Draining ((start limits archive stamp).run before).admitted.length b
        ((start limits archive stamp).run (before ++ .request .shutDown :: after)) ∧
      b.remaining + ((start limits archive stamp).run before).shutDown.departures after =
        b.total := by
  have hr := reachable_run hf
  have hg := hr.grounded
  have hi := hr.indexed
  have hh := hr.housed
  have hbefore := hf
  rw [feasible_append, Bool.and_eq_true, feasible, Bool.and_eq_true] at hbefore
  obtain ⟨hbefore, he, hafter⟩ := hbefore
  have hgoing := going_run hbefore rfl first
  have hgrounded := (reachable_run hbefore).grounded.step (ledger_step he)
  rw [run_append, run] at hg hi hh ⊢
  generalize (start limits archive stamp).run before = h at *
  have hbarrier : (h.step (.request .shutDown)).barrier = some (.arm h.admitted.length) := by
    rw [step, handle, shutDown, hgoing]
  have hadmitted : (h.step (.request .shutDown)).admitted = h.admitted := by
    rw [step, handle, shutDown, hgoing]
  obtain ⟨b, hb, htotal, hremaining, hsum⟩ :=
    barrier_run hafter hgrounded hbarrier (congrArg List.length hadmitted).symm
  exact ⟨b, draining_of hg hi hh hb htotal hremaining, hsum.trans htotal.symm⟩

def opening : List Event :=
  [.create "a" .line 8, .create "b" .line 8, .create "c" .line 8, .request (.join 0),
    .request (.join 1), .request (.register 0 "x"), .request (.joinRoom 1 "r")]

def closing : List Event :=
  [.request (.leave 0), .request (.leave 0), .request (.leave 7), .request (.join 2),
    .request .shutDown]

theorem draining_closing :
    (start .standard none "").feasible (opening ++ .request .shutDown :: closing) ∧
      .request .shutDown ∉ opening ∧
      ((start .standard none "").run opening).admitted.length = 2 ∧
      ((start .standard none "").run opening).shutDown.departures closing = 1 ∧
      ∃ b, Draining ((start .standard none "").run opening).admitted.length b
          ((start .standard none "").run (opening ++ .request .shutDown :: closing)) ∧
        b.remaining + ((start .standard none "").run opening).shutDown.departures closing =
          b.total :=
  ⟨by decide +kernel, by decide, by decide +kernel, by decide +kernel,
    draining_run (by decide +kernel) (by decide)⟩

end Hub
end ChatRelay

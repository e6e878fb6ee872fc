import ChatRelay.Proofs.Drain
import Mathlib.Data.List.Infix

/-! Those who wait for a shutdown to end. Several things may happen before they look again, and then
everybody whose wait is over is told so at once. What a wait is told, and when, can be read off what
happened by then, and does not depend on who else waits. -/

namespace ChatRelay
namespace Watch

inductive Event (κ : Type)
  | arrive
  | drop
  | advance (ms : Nat)
  | attend
  | wait (key : κ) (timeout : Option Nat)
  deriving DecidableEq, Repr

variable {κ : Type} {v w : Watch κ} {x : Wait κ} {key : κ} {timeout : Option Nat} {e : Event κ}
  {es early late : List (Event κ)} {before after ms p : List (List (Event κ))}

def step (w : Watch κ) : Event κ → Watch κ
  | .arrive => w.arrive
  | .drop => w.drop
  | .advance ms => w.advance ms
  | .attend => w
  | .wait key timeout => w.wait key timeout

def elapse (w : Watch κ) (es : List (Event κ)) : Watch κ := es.foldl step w

def run (w : Watch κ) : List (List (Event κ)) → List (κ × Report) × Watch κ
  | [] => ([], w)
  | m :: ms =>
    let (reports, w) := (w.elapse m).collect
    let (later, w) := w.run ms
    (reports ++ later, w)

/-! ### The course of things, whoever waits -/

def course (w : Watch κ) : Barrier × Bool × Nat := (w.barrier, w.dropped, w.now)

theorem elapse_concat (w : Watch κ) (es : List (Event κ)) (e : Event κ) :
    w.elapse (es ++ [e]) = (w.elapse es).step e := by
  simp only [elapse, List.foldl_append, List.foldl_cons, List.foldl_nil]

theorem elapse_append (w : Watch κ) (es late : List (Event κ)) :
    w.elapse (es ++ late) = (w.elapse es).elapse late := List.foldl_append

theorem course_step (h : v.course = w.course) (e : Event κ) :
    (v.step e).course = (w.step e).course := by
  simp only [course, Prod.mk.injEq] at h
  cases e <;> simp [course, step, Watch.arrive, Watch.drop, Watch.advance, Watch.wait, h]

theorem course_elapse (h : v.course = w.course) (es : List (Event κ)) :
    (v.elapse es).course = (w.elapse es).course := by
  induction es generalizing v w with
  | nil => exact h
  | cons e es ih => exact ih (course_step h e)

theorem course_collect (w : Watch κ) : w.collect.2.course = w.course := rfl

theorem run_append (w : Watch κ) (ms ns : List (List (Event κ))) :
    w.run (ms ++ ns) = ((w.run ms).1 ++ ((w.run ms).2.run ns).1, ((w.run ms).2.run ns).2) := by
  induction ms generalizing w with
  | nil => rfl
  | cons m ms ih => simp only [List.cons_append, run, ih, List.append_assoc]

theorem course_run (w : Watch κ) (ms : List (List (Event κ))) :
    (w.run ms).2.course = (w.elapse ms.flatten).course := by
  induction ms generalizing w with
  | nil => rfl
  | cons m ms ih =>
    rw [List.flatten_cons, elapse_append]
    exact (ih _).trans (course_elapse (course_collect _) _)

theorem verdict_congr (h : v.course = w.course) (x : Wait κ) :
    x.verdict v.barrier v.dropped v.now = x.verdict w.barrier w.dropped w.now := by
  simp only [course, Prod.mk.injEq] at h
  rw [h.1, h.2.1, h.2.2]

variable [DecidableEq κ] {total : Nat}

/-! ### What can be read off the events -/

def Event.span : Event κ → Nat
  | .advance ms => ms
  | _ => 0

def elapsed (es : List (Event κ)) : Nat := es.foldl (fun ms e => ms + e.span) 0

def remaining (total : Nat) (es : List (Event κ)) : Nat := total - es.count .arrive

/-- Nobody is missing, the barrier is gone, or the deadline has come. -/
def Over (total : Nat) (x : Wait κ) (es : List (Event κ)) : Prop :=
  remaining total es = 0 ∨ .drop ∈ es ∨ x.overdue (elapsed es)

def reportAt (total : Nat) (x : Wait κ) (es : List (Event κ)) : Report where
  total
  remaining := remaining total es
  timedOut := decide (0 < remaining total es ∧ .drop ∉ es ∧ x.overdue (elapsed es))

theorem course_arm (total : Nat) (es : List (Event κ)) :
    ((arm total).elapse es).course =
      (⟨total, remaining total es⟩, decide (.drop ∈ es), elapsed es) := by
  induction es using List.reverseRecOn with
  | nil => simp [elapse, arm, course, remaining, elapsed, Barrier.arm]
  | append_singleton es e ih =>
    simp only [course, Prod.mk.injEq] at ih
    rw [elapse_concat]
    cases e <;> simp [course, step, Watch.arrive, Watch.drop, Watch.advance, Watch.wait,
      Barrier.arrive, remaining, elapsed, Event.span, ih, Nat.sub_sub]

instance (total : Nat) (x : Wait κ) (es : List (Event κ)) : Decidable (Over total x es) :=
  inferInstanceAs (Decidable (_ ∨ _ ∨ _))

theorem verdict_eq (hw : w.course = ((arm total).elapse es).course) (x : Wait κ) :
    x.verdict w.barrier w.dropped w.now =
      if Over total x es then some (reportAt total x es) else none := by
  have hcourse := hw.trans (course_arm total es)
  simp only [course, Prod.mk.injEq] at hcourse
  obtain ⟨hbarrier, hdropped, hnow⟩ := hcourse
  rw [hbarrier, hdropped, hnow]
  unfold Wait.verdict Over reportAt
  dsimp only
  by_cases hzero : remaining total es = 0
  · simp [hzero]
  have hpos : 0 < remaining total es := Nat.pos_of_ne_zero hzero
  by_cases hdrop : .drop ∈ es
  · simp [hdrop]
  by_cases hover : x.overdue (elapsed es) <;> simp [hzero, hdrop, hover, hpos]

theorem drop_mem_of_reportAt (ended : Over total x es)
    (timely : (reportAt total x es).timedOut = false)
    (missing : 0 < (reportAt total x es).remaining) : .drop ∈ es := by
  by_contra hdrop
  rcases ended with hzero | h | hlate
  · exact absurd hzero (Nat.ne_of_gt missing)
  · exact hdrop h
  · exact of_decide_eq_false timely ⟨missing, hdrop, hlate⟩

/-! ### Single moments -/

def awaiting (w : Watch κ) (key : κ) : List (Wait κ) := w.waits.filter (·.key = key)

def told (w : Watch κ) (ms : List (List (Event κ))) (key : κ) : List (κ × Report) :=
  (w.run ms).1.filter (·.1 = key)

def toldNext (w : Watch κ) (ms : List (List (Event κ))) (key : κ) : List (κ × Report) :=
  w.collect.1.filter (·.1 = key) ++ w.collect.2.told ms key

def Event.begun (now : Nat) (key : κ) : Event κ → List (Wait κ)
  | .wait other timeout => if other = key then [⟨other, timeout.map (now + ·)⟩] else []
  | _ => []

theorem told_cons (w : Watch κ) (m : List (Event κ)) (ms : List (List (Event κ))) (key : κ) :
    w.told (m :: ms) key = (w.elapse m).toldNext ms key := by
  simp only [told, toldNext, run, List.filter_append]

theorem filter_collect (w : Watch κ) (key : κ) :
    w.collect.1.filter (·.1 = key) = (w.awaiting key).filterMap fun x =>
      (x.verdict w.barrier w.dropped w.now).map (x.key, ·) := by
  unfold awaiting collect Wait.settle
  dsimp only
  induction w.waits with
  | nil => rfl
  | cons x xs ih =>
    cases hv : x.verdict w.barrier w.dropped w.now <;> by_cases hk : x.key = key <;>
      simp [hv, hk, ih]

theorem awaiting_collect (w : Watch κ) (key : κ) :
    w.collect.2.awaiting key = (w.awaiting key).filter fun x =>
      (x.verdict w.barrier w.dropped w.now).isNone := by
  simp only [awaiting, collect, Wait.settle, List.filter_filter, Bool.and_comm]

theorem awaiting_step (w : Watch κ) (e : Event κ) (key : κ) :
    (w.step e).awaiting key = w.awaiting key ++ e.begun w.now key := by
  cases e with
  | wait other timeout =>
    by_cases hk : other = key <;>
      simp [awaiting, step, Watch.wait, Event.begun, List.filter_append, hk]
  | arrive | drop | advance | attend => exact (List.append_nil _).symm

theorem awaiting_elapse (w : Watch κ) (hn : ∀ t, .wait key t ∉ es) :
    (w.elapse es).awaiting key = w.awaiting key := by
  induction es generalizing w with
  | nil => rfl
  | cons e es ih =>
    have hbegun : e.begun w.now key = [] := by
      cases e with
      | wait other timeout =>
        have hk : other ≠ key := fun hk => hn timeout (hk ▸ List.mem_cons_self)
        exact if_neg hk
      | arrive | drop | advance | attend => rfl
    have hrest := ih (w.step e) fun t ht => hn t (List.mem_cons_of_mem e ht)
    rw [awaiting_step, hbegun, List.append_nil] at hrest
    exact hrest

theorem awaiting_begin (w : Watch κ) (ha : w.awaiting key = []) (hearly : ∀ t, .wait key t ∉ early)
    (hlate : ∀ t, .wait key t ∉ late) (timeout : Option Nat) :
    (w.elapse (early ++ .wait key timeout :: late)).awaiting key =
      [⟨key, timeout.map ((w.elapse early).now + ·)⟩] := by
  have hcons : .wait key timeout :: late = [.wait key timeout] ++ late := rfl
  rw [hcons, ← List.append_assoc, elapse_append, awaiting_elapse _ hlate, elapse_concat,
    awaiting_step, awaiting_elapse w hearly, ha, List.nil_append]
  exact if_pos rfl

/-! ### Moment after moment -/

theorem told_of_not_awaiting (ha : w.awaiting key = []) (hn : ∀ t, .wait key t ∉ ms.flatten) :
    w.told ms key = [] ∧ (w.run ms).2.awaiting key = [] := by
  induction ms generalizing w with
  | nil => exact ⟨rfl, ha⟩
  | cons m ms ih =>
    have hm : (w.elapse m).awaiting key = [] := by
      rw [awaiting_elapse w fun t ht => hn t (List.mem_append_left _ ht), ha]
    have hnext : (w.elapse m).collect.2.awaiting key = [] := by
      rw [awaiting_collect, hm, List.filter_nil]
    obtain ⟨htold, hrun⟩ := ih hnext fun t ht => hn t (List.mem_append_right _ ht)
    refine ⟨?_, hrun⟩
    rw [told_cons, toldNext, filter_collect, hm, List.filterMap_nil, htold]
    rfl

theorem told_since (w : Watch κ) (ha : w.awaiting key = [])
    (hn : ∀ t, .wait key t ∉ before.flatten) (m : List (Event κ))
    (after : List (List (Event κ))) :
    w.told (before ++ m :: after) key = ((w.run before).2.elapse m).toldNext after key := by
  have hsilent : (w.run before).1.filter (·.1 = key) = [] := (told_of_not_awaiting ha hn).1
  rw [← told_cons, told, run_append, List.filter_append, hsilent]
  rfl

theorem toldNext_pending (hw : w.course = ((arm total).elapse es).course)
    (ha : w.awaiting key = [x]) (pending : ¬ Over total x es) :
    w.toldNext ms key = w.collect.2.told ms key ∧ w.collect.2.awaiting key = [x] := by
  have hv := verdict_eq hw x
  rw [if_neg pending] at hv
  rw [toldNext, filter_collect, awaiting_collect, ha]
  simp [hv]

theorem toldNext_over (hw : w.course = ((arm total).elapse es).course)
    (ha : w.awaiting key = [x]) (ended : Over total x es) (hn : ∀ t, .wait key t ∉ ms.flatten) :
    w.toldNext ms key = [(x.key, reportAt total x es)] := by
  have hv := verdict_eq hw x
  rw [if_pos ended] at hv
  have hnext : w.collect.2.awaiting key = [] := by
    rw [awaiting_collect, ha]
    simp [hv]
  rw [toldNext, filter_collect, ha, (told_of_not_awaiting hnext hn).1]
  simp [hv]

def firstOver (total : Nat) (x : Wait κ) (es : List (Event κ)) (after : List (List (Event κ))) :
    Option (List (Event κ)) :=
  (after.inits.map fun p => es ++ p.flatten).find? (Over total x ·)

theorem firstOver_cons_of_pending (pending : ¬ Over total x es) (m : List (Event κ))
    (ms : List (List (Event κ))) :
    firstOver total x es (m :: ms) = firstOver total x (es ++ m) ms := by
  have hmoments : (m :: ms).inits.map (fun p => es ++ p.flatten) =
      es :: ms.inits.map fun p => es ++ m ++ p.flatten := by
    simp [Function.comp_def]
  rw [firstOver, hmoments, List.find?_cons_of_neg (by simpa using pending)]
  rfl

theorem firstOver_of_over (ended : Over total x es) (ms : List (List (Event κ))) :
    firstOver total x es ms = some es := by
  cases ms <;> simp [firstOver, ended]

theorem of_firstOver_eq_some {fs : List (Event κ)} (h : firstOver total x es ms = some fs) :
    Over total x fs ∧ fs ⊆ es ++ ms.flatten := by
  unfold firstOver at h
  have hover := List.find?_some h
  obtain ⟨p, hp, rfl⟩ := List.mem_map.1 (List.mem_of_find?_eq_some h)
  have hflat : p.flatten <+: ms.flatten := by
    obtain ⟨rest, rfl⟩ := (List.mem_inits p ms).1 hp
    rw [List.flatten_append]
    exact List.prefix_append _ _
  exact ⟨of_decide_eq_true hover, ((List.prefix_append_right_inj es).2 hflat).subset⟩

theorem toldNext_eq (hw : w.course = ((arm total).elapse es).course)
    (ha : w.awaiting x.key = [x]) (hn : ∀ t, .wait x.key t ∉ ms.flatten) :
    w.toldNext ms x.key =
      ((firstOver total x es ms).map fun es => (x.key, reportAt total x es)).toList := by
  -- over the moments to come, with all that has happened so far in view
  induction ms generalizing w es with
  | nil =>
    by_cases ended : Over total x es
    · rw [toldNext_over hw ha ended hn, firstOver_of_over ended]
      rfl
    · rw [(toldNext_pending hw ha ended).1]
      simp [firstOver, ended, told, run]
  | cons m ms ih =>
    by_cases ended : Over total x es
    · rw [toldNext_over hw ha ended hn, firstOver_of_over ended]
      rfl
    · obtain ⟨htold, hnext⟩ : w.toldNext (m :: ms) x.key = w.collect.2.told (m :: ms) x.key ∧
          w.collect.2.awaiting x.key = [x] := toldNext_pending hw ha ended
      have hm : (w.collect.2.elapse m).awaiting x.key = [x] := by
        rw [awaiting_elapse _ fun t ht => hn t (List.mem_append_left _ ht), hnext]
      have hcourse : (w.collect.2.elapse m).course = ((arm total).elapse (es ++ m)).course := by
        rw [elapse_append]
        exact course_elapse ((course_collect w).trans hw) m
      rw [htold, told_cons, firstOver_cons_of_pending ended]
      exact ih hcourse hm fun t ht => hn t (List.mem_append_right _ ht)

/-! ### Among others -/

def Event.concerns (key : κ) : Event κ → Bool
  | .wait other _ => other = key
  | _ => true

theorem step_alone (hc : v.course = w.course) (ha : v.awaiting key = w.awaiting key)
    (es : List (Event κ)) :
    (v.elapse (es.filter (·.concerns key))).course = (w.elapse es).course ∧
      (v.elapse (es.filter (·.concerns key))).awaiting key = (w.elapse es).awaiting key := by
  induction es generalizing v w with
  | nil => exact ⟨hc, ha⟩
  | cons e es ih =>
    have hnow : v.now = w.now := congrArg (fun c => c.2.2) hc
    by_cases he : e.concerns key
    · rw [List.filter_cons_of_pos he]
      apply ih (course_step hc e)
      rw [awaiting_step, awaiting_step, ha, hnow]
    · rw [List.filter_cons_of_neg he]
      cases e with
      | wait other timeout =>
        have hbegun : (Event.wait other timeout).begun w.now key = [] :=
          if_neg fun hk => he (decide_eq_true hk)
        apply ih (w := w.step (.wait other timeout)) hc
        rw [awaiting_step, hbegun, List.append_nil, ha]
      | arrive | drop | advance | attend => exact absurd rfl he

theorem told_alone (hc : v.course = w.course) (ha : v.awaiting key = w.awaiting key)
    (ms : List (List (Event κ))) :
    v.told (ms.map (·.filter (·.concerns key))) key = w.told ms key := by
  induction ms generalizing v w with
  | nil => rfl
  | cons m ms ih =>
    obtain ⟨hcourse, hawaiting⟩ := step_alone hc ha m
    have hverdict := fun x : Wait κ => verdict_congr hcourse x
    have hnext := ih (v := (v.elapse (m.filter (·.concerns key))).collect.2)
      (w := (w.elapse m).collect.2) hcourse (by
        rw [awaiting_collect, awaiting_collect, hawaiting]
        simp only [hverdict])
    rw [List.map_cons, told_cons, told_cons, toldNext, toldNext, filter_collect, filter_collect,
      hawaiting, hnext]
    simp only [hverdict]

/-! ### What a wait is told -/

/-- What is reported to somebody who began to wait in a moment at the end of which `since` had
happened, when the moments `after` it have passed. -/
structure Truthful (total : Nat) (x : Wait κ) (since : List (Event κ))
    (after : List (List (Event κ))) (reports : List (κ × Report)) : Prop where
  once : reports =
    ((firstOver total x since after).map fun es => (x.key, reportAt total x es)).toList
  /-- Only the end of the barrier leaves somebody missing whom no deadline left behind. -/
  dropped : ∀ r ∈ reports, r.2.timedOut = false → 0 < r.2.remaining →
    .drop ∈ since ++ after.flatten

theorem told_truthfully
    (once : ∀ t, .wait key t ∉ before.flatten ++ early ++ late ++ after.flatten) :
    let ms := before ++ (early ++ .wait key timeout :: late) :: after
    Truthful total ⟨key, timeout.map (elapsed (before.flatten ++ early) + ·)⟩
        (before.flatten ++ (early ++ .wait key timeout :: late)) after ((arm total).told ms key) ∧
      (arm total).told (ms.map (·.filter (·.concerns key))) key = (arm total).told ms key := by
  intro ms
  simp only [List.mem_append, not_or] at once
  have hbefore : ∀ t, .wait key t ∉ before.flatten := fun t => (once t).1.1.1
  have hearly : ∀ t, .wait key t ∉ early := fun t => (once t).1.1.2
  have hlate : ∀ t, .wait key t ∉ late := fun t => (once t).1.2
  have hnobody := (told_of_not_awaiting (w := arm total) rfl hbefore).2
  have hcourse := course_run (arm total) before
  have hnow : (((arm total).run before).2.elapse early).now =
      elapsed (before.flatten ++ early) := by
    have hc := course_elapse hcourse early
    rw [← elapse_append, course_arm] at hc
    exact congrArg (fun c => c.2.2) hc
  have hbegun := awaiting_begin _ hnobody hearly hlate timeout
  rw [hnow] at hbegun
  have hsince := course_elapse hcourse (early ++ .wait key timeout :: late)
  rw [← elapse_append] at hsince
  refine ⟨?_, told_alone rfl rfl ms⟩
  rw [told_since (arm total) rfl hbefore]
  have heq := toldNext_eq (x := ⟨key, timeout.map (elapsed (before.flatten ++ early) + ·)⟩) hsince
    hbegun fun t => (once t).2
  refine ⟨heq, fun r hr htimely hmissing => ?_⟩
  rw [heq] at hr
  obtain ⟨es, hes, rfl⟩ := Option.map_eq_some_iff.1 (Option.mem_toList.1 hr)
  obtain ⟨hover, hsub⟩ := of_firstOver_eq_some hes
  exact hsub (drop_mem_of_reportAt hover htimely hmissing)

def firstMoments : List (List (Event Nat)) :=
  [[.attend, .attend], [.wait 1 (some 5), .arrive]]

def lastMoments : List (List (Event Nat)) :=
  [[.advance 2], [.advance 1, .arrive], [.wait 2 none]]

theorem told_truthfully_lastMoments :
    (∀ t, .wait 0 t ∉ firstMoments.flatten ++ [.advance 2] ++ [] ++ lastMoments.flatten) ∧
      (arm 2).told (firstMoments ++ ([.advance 2] ++ .wait 0 (some 3) :: []) :: lastMoments) 0 =
        [(0, ⟨2, 0, false⟩)] ∧
      Truthful 2 ⟨0, (some 3).map (elapsed (firstMoments.flatten ++ [.advance 2]) + ·)⟩
        (firstMoments.flatten ++ ([.advance 2] ++ .wait 0 (some 3) :: [])) lastMoments
        ((arm 2).told
          (firstMoments ++ ([.advance 2] ++ .wait 0 (some 3) :: []) :: lastMoments) 0) :=
  have once : ∀ t, .wait 0 t ∉
      firstMoments.flatten ++ [.advance 2] ++ [] ++ lastMoments.flatten := by
    simp [firstMoments, lastMoments]
  ⟨once, by decide, (told_truthfully once).1⟩

end Watch
end ChatRelay

/-! The count of sessions that still have to leave after a shutdown began, and the waits for it to
reach zero. -/

namespace ChatRelay

structure Barrier where
  total : Nat
  remaining : Nat
  deriving DecidableEq, Repr

def Barrier.arm (total : Nat) : Barrier := ⟨total, total⟩

def Barrier.arrive (b : Barrier) : Barrier := { b with remaining := b.remaining - 1 }

structure Report where
  total : Nat
  remaining : Nat
  timedOut : Bool
  deriving DecidableEq, Repr

structure Wait (κ : Type) where
  key : κ
  deadline : Option Nat
  deriving DecidableEq, Repr

namespace Wait

variable {κ : Type}

def overdue (w : Wait κ) (now : Nat) : Bool := w.deadline.any (· ≤ now)

/-- What a wait reports now, if it is over. A count of zero, or the end of the barrier, wins over
a deadline. -/
def verdict (w : Wait κ) (b : Barrier) (dropped : Bool) (now : Nat) : Option Report :=
  if b.remaining = 0 ∨ dropped then some ⟨b.total, b.remaining, false⟩
  else if w.overdue now then some ⟨b.total, b.remaining, true⟩
  else none

def settle (ws : List (Wait κ)) (b : Barrier) (dropped : Bool) (now : Nat) :
    List (κ × Report) × List (Wait κ) :=
  (ws.filterMap fun w => (w.verdict b dropped now).map (w.key, ·),
    ws.filter fun w => (w.verdict b dropped now).isNone)

theorem verdict_of_zero {w : Wait κ} {b : Barrier} (h : b.remaining = 0) (dropped : Bool)
    (now : Nat) : w.verdict b dropped now = some ⟨b.total, 0, false⟩ := by
  simp [verdict, h]

theorem verdict_eq_none_iff {w : Wait κ} {b : Barrier} {dropped : Bool} {now : Nat} :
    w.verdict b dropped now = none ↔
      0 < b.remaining ∧ dropped = false ∧ w.overdue now = false := by
  unfold verdict
  by_cases h : b.remaining = 0 ∨ dropped
  · rw [if_pos h]
    constructor
    · intro hn
      cases hn
    · rintro ⟨h0, hd, _⟩
      rcases h with h | h
      · omega
      · simp [hd] at h
  · rw [if_neg h]
    obtain ⟨h0, hd⟩ := not_or.1 h
    have hd : dropped = false := by simpa using hd
    cases ho : w.overdue now
    · simp [hd, Nat.pos_of_ne_zero h0]
    · simp

end Wait

structure Watch (κ : Type) where
  barrier : Barrier
  dropped : Bool
  now : Nat
  waits : List (Wait κ)
  deriving Repr

namespace Watch

variable {κ : Type}

def arm (total : Nat) : Watch κ := ⟨.arm total, false, 0, []⟩

def collect (w : Watch κ) : List (κ × Report) × Watch κ :=
  let (reports, waits) := Wait.settle w.waits w.barrier w.dropped w.now
  (reports, { w with waits })

def arrive (w : Watch κ) : Watch κ := { w with barrier := w.barrier.arrive }

def drop (w : Watch κ) : Watch κ := { w with dropped := true }

def advance (w : Watch κ) (ms : Nat) : Watch κ := { w with now := w.now + ms }

def wait (w : Watch κ) (key : κ) (timeout : Option Nat) : Watch κ :=
  { w with waits := w.waits ++ [⟨key, timeout.map (w.now + ·)⟩] }

end Watch
end ChatRelay

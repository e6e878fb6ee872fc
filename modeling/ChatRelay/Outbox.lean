import ChatRelay.Fault

/-! The bounded queue between the relay and the writer of one session. Nothing that is queued is
lost or reordered, and whoever queues never waits: a full queue refuses. -/

namespace ChatRelay

inductive Outgoing
  | text (text : String)
  | close
  deriving DecidableEq, Repr

inductive Intake
  | open
  | closed
  | gone
  deriving DecidableEq, Repr

structure Outbox where
  capacity : Nat
  items : List Outgoing
  intake : Intake
  deriving DecidableEq, Repr

namespace Outbox

def create (capacity : Nat) : Outbox := ⟨max capacity 1, [], .open⟩

def push (box : Outbox) (item : Outgoing) : Except SendFault Outbox :=
  if box.intake ≠ .open then .error .channelClosed
  else if box.capacity ≤ box.items.length then .error .queueFull
  else .ok { box with items := box.items ++ [item] }

def take? (box : Outbox) : Option (Outgoing × Outbox) :=
  match box.items with
  | [] => none
  | item :: items => some (item, { box with items })

def clear (box : Outbox) : Outbox := { box with items := [] }

def shut (box : Outbox) : Outbox :=
  if box.intake = .gone then box else { box with intake := .closed }

def abandon (box : Outbox) : Outbox := { box with items := [], intake := .gone }

theorem push_eq_ok_iff {box box' : Outbox} {item : Outgoing} :
    box.push item = .ok box' ↔
      box.intake = .open ∧ box.items.length < box.capacity ∧
        box' = { box with items := box.items ++ [item] } := by
  unfold push
  split
  · simp_all
  · split
    · constructor
      · intro h
        cases h
      · rintro ⟨_, h, _⟩
        omega
    · constructor
      · intro h
        cases h
        exact ⟨by simp_all, by omega, rfl⟩
      · rintro ⟨_, _, rfl⟩
        rfl

theorem push_eq_queueFull_iff {box : Outbox} {item : Outgoing} :
    box.push item = .error .queueFull ↔
      box.intake = .open ∧ box.capacity ≤ box.items.length := by
  unfold push
  split
  · simp_all
  · split <;> simp_all

theorem take?_eq_some_iff {box box' : Outbox} {item : Outgoing} :
    box.take? = some (item, box') ↔
      box.items = item :: box'.items ∧ box'.capacity = box.capacity ∧
        box'.intake = box.intake := by
  obtain ⟨capacity, items, intake⟩ := box
  obtain ⟨capacity', items', intake'⟩ := box'
  cases items with
  | nil => simp [take?]
  | cons head tail =>
    simp only [take?, Option.some.injEq, Prod.mk.injEq, Outbox.mk.injEq, List.cons.injEq]
    constructor
    · rintro ⟨rfl, rfl, rfl, rfl⟩
      exact ⟨⟨rfl, rfl⟩, rfl, rfl⟩
    · rintro ⟨⟨rfl, rfl⟩, rfl, rfl⟩
      exact ⟨rfl, rfl, rfl, rfl⟩

end Outbox
end ChatRelay

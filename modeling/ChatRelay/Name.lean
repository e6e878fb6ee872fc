import ChatRelay.Text.Blank

/-! Nicknames and room names. Both are non-empty texts without blanks and of bounded length,
counted in characters; two nicknames are kept for the relay itself. -/

namespace ChatRelay.Name

inductive Kind
  | nickname
  | room
  deriving DecidableEq, Repr

inductive Flaw
  | empty
  | blank
  | tooLong (limit : Nat)
  | reserved
  deriving DecidableEq, Repr

def reserved : List String := ["Server", "system"]

def flaw? (kind : Kind) (limit : Nat) (name : String) : Option Flaw :=
  if name.isEmpty then some .empty
  else if name.toList.any Text.isBlank then some .blank
  else if limit < name.length then some (.tooLong limit)
  else if kind = .nickname ∧ name ∈ reserved then some .reserved
  else none

def Valid (kind : Kind) (limit : Nat) (name : String) : Prop :=
  name ≠ "" ∧ (∀ c ∈ name.toList, ¬ Text.isBlank c) ∧ name.length ≤ limit ∧
    (kind = .nickname → name ∉ reserved)

theorem flaw?_eq_none_iff {kind : Kind} {limit : Nat} {name : String} :
    flaw? kind limit name = none ↔ Valid kind limit name := by
  have h : name.isEmpty = true ↔ name = "" := String.isEmpty_iff
  unfold flaw? Valid
  grind

end ChatRelay.Name

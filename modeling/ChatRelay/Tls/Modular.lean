/-! Arithmetic modulo a prime. A residue is a number from zero up to the modulus. -/

namespace ChatRelay.Tls.Modular

/-- So many copies of an element together. Each round halves their number and doubles the
element. -/
def multiple {α : Type} (add : α → α → α) (zero : α) (n : Nat) (x : α) : α :=
  if n = 0 then zero
  else
    let rest := multiple add zero (n / 2) (add x x)
    if n % 2 = 0 then rest else add x rest
termination_by n

theorem multiple_zero {α : Type} (add : α → α → α) (zero x : α) :
    multiple add zero 0 x = zero := by
  rw [multiple]; simp

theorem multiple_of_pos {α : Type} (add : α → α → α) (zero x : α) {n : Nat} (h : n ≠ 0) :
    multiple add zero n x =
      if n % 2 = 0 then multiple add zero (n / 2) (add x x)
      else add x (multiple add zero (n / 2) (add x x)) := by
  rw [multiple]; simp [h]

theorem multiple_add (n x : Nat) : multiple (· + ·) 0 n x = n * x := by
  induction n using Nat.strongRecOn generalizing x with
  | _ n ih =>
    by_cases h : n = 0
    · simp [h, multiple_zero]
    · rw [multiple_of_pos _ _ _ h, ih (n / 2) (by omega)]
      have halves : n / 2 * (x + x) = 2 * (n / 2) * x := by
        rw [← Nat.two_mul, Nat.mul_left_comm, Nat.mul_assoc]
      split
      · rw [halves, show 2 * (n / 2) = n by omega]
      · rw [halves]
        conv => rhs; rw [show n = 2 * (n / 2) + 1 by omega, Nat.succ_mul]
        omega

def power (p a : Int) (n : Nat) : Int := multiple (fun a b => a * b % p) 1 n a

/-- The power that undoes a multiplication, as the modulus is a prime. -/
def inverse (p a : Int) : Int := power p a (p - 2).toNat

def quotient (p a b : Int) : Int := a * inverse p (b % p) % p

end ChatRelay.Tls.Modular

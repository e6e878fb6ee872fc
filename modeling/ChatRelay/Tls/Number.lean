import ChatRelay.Text.Utf8

/-! Natural numbers as bytes, the most significant first. -/

namespace ChatRelay.Tls.Number

open Text (Bytes)

def ofBytes (bs : Bytes) : Nat := bs.foldl (fun n b => 256 * n + b.toNat) 0

def toBytes : Nat → Nat → Bytes
  | 0, _ => []
  | size + 1, n => toBytes size (n / 256) ++ [UInt8.ofNat n]

def bits (n : Nat) : Nat := if n = 0 then 0 else n.log2 + 1

theorem ofBytes_concat (bs : Bytes) (b : UInt8) :
    ofBytes (bs ++ [b]) = 256 * ofBytes bs + b.toNat := by
  simp [ofBytes]

theorem length_toBytes (size n : Nat) : (toBytes size n).length = size := by
  induction size generalizing n with
  | zero => rfl
  | succ size ih => simp [toBytes, ih]

theorem ofBytes_toBytes {size n : Nat} (h : n < 1 <<< (8 * size)) :
    ofBytes (toBytes size n) = n := by
  induction size generalizing n with
  | zero => simp at h; simp [toBytes, ofBytes, h]
  | succ size ih =>
    have : n / 256 < 1 <<< (8 * size) := by rw [Nat.mul_succ, Nat.shiftLeft_add] at h; omega
    rw [toBytes, ofBytes_concat, ih this]
    simp
    omega

end ChatRelay.Tls.Number

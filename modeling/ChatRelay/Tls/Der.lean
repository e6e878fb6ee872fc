import ChatRelay.Tls.Number

/-! Elements of DER: a tag, a length and a content, which may itself be a row of elements. A length
is written in one way only, as short as it can be, and takes two bytes at most. -/

namespace ChatRelay.Tls.Der

open Text (Bytes)

structure Element where
  tag : UInt8
  content : Bytes
  deriving DecidableEq, Repr

namespace Tag

@[match_pattern] def boolean : UInt8 := 0x01
@[match_pattern] def integer : UInt8 := 0x02
@[match_pattern] def bitString : UInt8 := 0x03
@[match_pattern] def octetString : UInt8 := 0x04
@[match_pattern] def objectId : UInt8 := 0x06
@[match_pattern] def sequence : UInt8 := 0x30

@[match_pattern] def field0 : UInt8 := 0xA0
@[match_pattern] def field1 : UInt8 := 0xA1
@[match_pattern] def field3 : UInt8 := 0xA3

@[match_pattern] def plainField1 : UInt8 := 0x81

end Tag

/-! ### Reading -/

def isLongTag (tag : UInt8) : Bool := tag &&& 0x1F == 0x1F

def length? : Bytes → Option (Nat × Bytes)
  | 0x81 :: b :: bs => if 0x80 ≤ b then some (b.toNat, bs) else none
  | 0x82 :: a :: b :: bs =>
    let n := Number.ofBytes [a, b]
    if 0x100 ≤ n ∧ n < 0xFFFF then some (n, bs) else none
  | b :: bs => if b < 0x80 then some (b.toNat, bs) else none
  | [] => none

def read? : Bytes → Option (Element × Bytes)
  | [] => none
  | tag :: bs =>
    if isLongTag tag then none
    else (length? bs).bind fun (n, rest) =>
      if rest.length < n then none else some (⟨tag, rest.take n⟩, rest.drop n)

def rowWith : Nat → Bytes → Option (List Element)
  | _, [] => some []
  | 0, _ :: _ => none
  | fuel + 1, bs =>
    (read? bs).bind fun (e, rest) => (rowWith fuel rest).map (e :: ·)

def row? (bs : Bytes) : Option (List Element) := rowWith bs.length bs

def sequence? (bs : Bytes) : Option (List Element) := do
  match ← row? bs with
  | [⟨Tag.sequence, content⟩] => row? content
  | _ => none

/-- A number that is not negative. A leading zero stands only before a byte that would otherwise
carry a sign. -/
def natural? : Bytes → Option Nat
  | [b] => if b < 0x80 then some b.toNat else none
  | a :: b :: bs =>
    if a < 0x80 ∧ (a ≠ 0 ∨ 0x80 ≤ b) then some (Number.ofBytes (a :: b :: bs)) else none
  | [] => none

/-! ### Writing -/

def lengthBytes (n : Nat) : Bytes :=
  if n < 0x80 then Number.toBytes 1 n
  else if n < 0x100 then 0x81 :: Number.toBytes 1 n
  else 0x82 :: Number.toBytes 2 n

def write (tag : UInt8) (content : Bytes) : Bytes := tag :: lengthBytes content.length ++ content

theorem length?_lengthBytes {n : Nat} (h : n < 0xFFFF) (rest : Bytes) :
    length? (lengthBytes n ++ rest) = some (n, rest) := by
  have byte (k : Nat) : (UInt8.ofNat k).toNat = k % 256 := by simp
  have below (k : Nat) : UInt8.ofNat k < 0x80 ↔ k % 256 < 0x80 := by
    rw [UInt8.lt_iff_toNat_lt, byte]; rfl
  simp only [lengthBytes, Number.toBytes, List.nil_append]
  split
  · have small : UInt8.ofNat n < 0x80 := (below n).2 (by omega)
    have short : ∀ b : UInt8, b < 0x80 → length? (b :: rest) = some (b.toNat, rest) := by
      intro b hb
      rw [length?.eq_def]
      split
      next heq => rw [(List.cons.inj heq).1] at hb; exact absurd hb (by decide)
      next heq => rw [(List.cons.inj heq).1] at hb; exact absurd hb (by decide)
      next heq =>
        obtain ⟨rfl, rfl⟩ := List.cons.inj heq
        exact if_pos hb
      next heq => exact absurd heq (by simp)
    rw [List.singleton_append, short _ small, byte, Nat.mod_eq_of_lt (by omega)]
  · split
    · have large : (0x80 : UInt8) ≤ UInt8.ofNat n := by
        rw [UInt8.le_iff_toNat_le, byte]; show 128 ≤ n % 256; omega
      simp only [List.cons_append, List.nil_append, length?, large, if_true, byte]
      rw [Nat.mod_eq_of_lt (by omega)]
    · have whole : Number.ofBytes [UInt8.ofNat (n / 256), UInt8.ofNat n] = n := by
        simp only [Number.ofBytes, List.foldl_cons, List.foldl_nil, byte]; omega
      simp only [List.cons_append, List.nil_append, length?, whole]
      rw [if_pos (by omega)]

theorem read?_write {tag : UInt8} (h : isLongTag tag = false) {content : Bytes}
    (hc : content.length < 0xFFFF) (rest : Bytes) :
    read? (write tag content ++ rest) = some (⟨tag, content⟩, rest) := by
  simp [read?, write, h, length?_lengthBytes hc]

end ChatRelay.Tls.Der

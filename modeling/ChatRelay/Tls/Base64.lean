import ChatRelay.Text.Utf8

/-! Base64 as credential files hold it: blanks are skipped anywhere, and the padding may be left
out but not misplaced. Padding that more symbols follow is found when they do; the first byte that
means nothing is found as soon as it is read. -/

namespace ChatRelay.Tls.Base64

open Text (Bytes)

inductive Fault
  | invalidCharacter (byte : UInt8)
  | prematurePadding
  | invalidTrailingPadding
  deriving DecidableEq, Repr

def Fault.describe : Fault → String
  | .invalidCharacter byte => "InvalidCharacter(" ++ toString byte.toNat ++ ")"
  | .prematurePadding => "PrematurePadding"
  | .invalidTrailingPadding => "InvalidTrailingPadding"

def isBlank (b : UInt8) : Bool := 9 ≤ b && b ≤ 13 || b == 32

inductive Symbol
  | bits (n : Nat)
  | pad
  deriving DecidableEq, Repr

def symbol? (b : UInt8) : Option Symbol :=
  let n := b.toNat
  if 65 ≤ n ∧ n ≤ 90 then some (.bits (n - 65))
  else if 97 ≤ n ∧ n ≤ 122 then some (.bits (n - 97 + 26))
  else if 48 ≤ n ∧ n ≤ 57 then some (.bits (n - 48 + 52))
  else if n = 43 then some (.bits 62)
  else if n = 47 then some (.bits 63)
  else if n = 61 then some .pad
  else none

def byte (n : Nat) : UInt8 := UInt8.ofNat n

def groups : List Symbol → Except Fault Bytes
  | [] => .ok []
  | [.bits a, .bits b] | [.bits a, .bits b, .pad, .pad] => .ok [byte (a * 4 + b / 16)]
  | [.bits a, .bits b, .bits c] | [.bits a, .bits b, .bits c, .pad] =>
    .ok [byte (a * 4 + b / 16), byte (b * 16 + c / 4)]
  | .bits a :: .bits b :: .bits c :: .bits d :: rest =>
    (groups rest).map
      ([byte (a * 4 + b / 16), byte (b * 16 + c / 4), byte (c * 64 + d)] ++ ·)
  | _ => .error .invalidTrailingPadding

def blockSize : Nat := 8

def decodeAfter : List Symbol → Bytes → Except Fault Bytes
  | block, [] => groups block
  | block, b :: bs =>
    if isBlank b then decodeAfter block bs
    else match symbol? b with
      | none => .error (.invalidCharacter b)
      | some s =>
        if block.length < blockSize then decodeAfter (block ++ [s]) bs
        else if block.contains .pad then .error .prematurePadding
        else do return (← groups block) ++ (← decodeAfter [s] bs)

def decode (bs : Bytes) : Except Fault Bytes := decodeAfter [] bs

end ChatRelay.Tls.Base64

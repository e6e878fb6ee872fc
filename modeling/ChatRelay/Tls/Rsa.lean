import ChatRelay.Tls.Der

/-! RSA keys. A private key holds more than it would need, and all of it has to agree. -/

namespace ChatRelay.Tls.Rsa

open Text (Bytes)

structure Prime where
  value : Nat
  exponent : Nat
  deriving DecidableEq, Repr

structure PrivateKey where
  modulus : Nat
  exponent : Nat
  secret : Nat
  first : Prime
  second : Prime
  coefficient : Nat
  deriving DecidableEq, Repr

def isOdd (n : Nat) : Bool := n % 2 = 1

def soundModulus (n : Nat) : Bool :=
  isOdd n && 2040 < Number.bits n && Number.bits n ≤ 4096

def soundExponent (e : Nat) : Bool := isOdd e && 65537 ≤ e && e < 1 <<< 33

def Prime.sound (p : Prime) (halfBits : Nat) : Bool :=
  isOdd p.value && Number.bits p.value = halfBits && halfBits % 512 = 0 &&
    isOdd p.exponent && p.exponent < p.value

namespace PrivateKey

def halfBits (k : PrivateKey) : Nat := (Number.bits k.modulus + 1) / 2

def sound (k : PrivateKey) : Bool :=
  let p := k.first.value
  let q := k.second.value
  soundModulus k.modulus && soundExponent k.exponent &&
    k.first.sound k.halfBits && k.second.sound k.halfBits &&
    p < k.modulus && q < k.modulus && p * q % k.modulus = 0 &&
    isOdd k.secret && k.halfBits < Number.bits k.secret && k.secret < k.modulus &&
    k.coefficient < p && k.coefficient * q % p = 1

def ofNumbers? : List Nat → Option PrivateKey
  | [0, n, e, d, p, q, dp, dq, coefficient] => some ⟨n, e, d, ⟨p, dp⟩, ⟨q, dq⟩, coefficient⟩
  | _ => none

end PrivateKey

def integer? (e : Der.Element) : Option Nat :=
  if e.tag = Der.Tag.integer then Der.natural? e.content else none

def publicBytes (fields : List Der.Element) : Bytes :=
  Der.write Der.Tag.sequence
    (((fields.drop 1).take 2).flatMap fun e => Der.write Der.Tag.integer e.content)

def publicKey? (der : Bytes) : Option Bytes := do
  let fields ← Der.sequence? der
  let key ← PrivateKey.ofNumbers? (← fields.mapM integer?)
  if key.sound then return publicBytes fields else none

end ChatRelay.Tls.Rsa

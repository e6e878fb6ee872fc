import ChatRelay.Tls.Modular
import ChatRelay.Tls.Number

/-! Elliptic curves of the short form `y² = x³ - 3x + b` over a prime field. Each has a base
point, whose multiples are the public keys. -/

namespace ChatRelay.Tls

open Text (Bytes)

structure Curve where
  id : Bytes
  size : Nat
  modulus : Int
  order : Nat
  base : Int × Int
  deriving DecidableEq, Repr

namespace Curve

def p256 : Curve where
  id := [0x2A, 0x86, 0x48, 0xCE, 0x3D, 0x03, 0x01, 0x07]
  size := 32
  modulus := 1 <<< 256 - 1 <<< 224 + 1 <<< 192 + 1 <<< 96 - 1
  order := 0xFFFFFFFF00000000FFFFFFFFFFFFFFFFBCE6FAADA7179E84F3B9CAC2FC632551
  base :=
    (0x6B17D1F2E12C4247F8BCE6E563A440F277037D812DEB33A0F4A13945D898C296,
      0x4FE342E2FE1A7F9B8EE7EB4A7C0F9E162BCE33576B315ECECBB6406837BF51F5)

def p384 : Curve where
  id := [0x2B, 0x81, 0x04, 0x00, 0x22]
  size := 48
  modulus := 1 <<< 384 - 1 <<< 128 - 1 <<< 96 + 1 <<< 32 - 1
  order :=
    0xFFFFFFFFFFFFFFFFFFFFFFFFFFFFFFFFFFFFFFFFFFFFFFFF <<< 192 +
      0xC7634D81F4372DDF581A0DB248B0A77AECEC196ACCC52973
  base :=
    (0xAA87CA22BE8B05378EB1C71EF320AD746E1D3B628BA79B98 <<< 192 +
        0x59F741E082542A385502F25DBF55296C3A545E3872760AB7,
      0x3617DE4A96262C6F5D9E98BF9292DC29F8F41DBD289A147C <<< 192 +
        0xE9DA3113B5F0B8C00A60B1CE1D7E819D7A431D7C90EA0E5F)

inductive Point
  | infinity
  | affine (x y : Int)
  deriving DecidableEq, Repr

variable (c : Curve)

def add : Point → Point → Point
  | .infinity, q => q
  | p, .infinity => p
  | .affine x₁ y₁, .affine x₂ y₂ =>
    if x₁ = x₂ ∧ (y₁ + y₂) % c.modulus = 0 then .infinity
    else
      let slope :=
        if x₁ = x₂ then Modular.quotient c.modulus (3 * x₁ * x₁ - 3) (2 * y₁)
        else Modular.quotient c.modulus (y₂ - y₁) (x₂ - x₁)
      let x := (slope * slope - x₁ - x₂) % c.modulus
      .affine x ((slope * (x₁ - x) - y₁) % c.modulus)

def multipleOfBase (n : Nat) : Point :=
  Modular.multiple c.add .infinity n (.affine c.base.1 c.base.2)

def pointBytes : Point → Bytes
  | .infinity => [0]
  | .affine x y => 4 :: Number.toBytes c.size x.toNat ++ Number.toBytes c.size y.toNat

def publicKey? (secret : Bytes) : Option Bytes :=
  let n := Number.ofBytes secret
  if secret.length = c.size ∧ 0 < n ∧ n < c.order then some (c.pointBytes (c.multipleOfBase n))
  else none

end Curve
end ChatRelay.Tls

import ChatRelay.Tls.Modular
import ChatRelay.Tls.Sha512

/-! Signature keys on the twisted Edwards curve `y² - x² = 1 + d x² y²` modulo `2 ^ 255 - 19`. -/

namespace ChatRelay.Tls.Edwards

open Text (Bytes)

def modulus : Int := 1 <<< 255 - 19

def coefficient : Int := Modular.quotient modulus (-121665) 121666

structure Point where
  x : Int
  y : Int
  deriving DecidableEq, Repr

def zero : Point := ⟨0, 1⟩

/-- Its `y` is four fifths. -/
def base : Point :=
  ⟨15112221349535400772501151409588531511454012693041857206046113283949847762202,
    46316835694926478169428394003475163141307993866256225615783033603165251855960⟩

def add (p q : Point) : Point :=
  let product := coefficient * (p.x * q.x % modulus) * (p.y * q.y % modulus)
  ⟨Modular.quotient modulus (p.x * q.y + q.x * p.y) (1 + product),
    Modular.quotient modulus (p.y * q.y + p.x * q.x) (1 - product)⟩

def seedSize : Nat := 32

/-- The number that a seed stands for: the first half of its hash, the least significant byte
first, with the last three bits cleared and the top bit set. -/
def secretNumber (seed : Bytes) : Nat :=
  let n := Number.ofBytes ((Sha512.digest seed).take 32).reverse
  1 <<< 254 + n % (1 <<< 254) / 8 * 8

def pointBytes (p : Point) : Bytes :=
  (Number.toBytes 32 (p.y.toNat + (p.x.toNat % 2) <<< 255)).reverse

def publicKey? (seed : Bytes) : Option Bytes :=
  if seed.length = seedSize then
    some (pointBytes (Modular.multiple add zero (secretNumber seed) base))
  else none

end ChatRelay.Tls.Edwards

import ChatRelay.Tls.Curve
import ChatRelay.Tls.Der
import ChatRelay.Tls.Edwards
import ChatRelay.Tls.Pem
import ChatRelay.Tls.Rsa

/-! Private keys in the forms that files hold, and the public key that each of them leads to. -/

namespace ChatRelay.Tls

open Text (Bytes)
open Der

inductive Algorithm
  | rsa
  | curve (c : Curve)
  | edwards
  deriving DecidableEq, Repr

namespace Algorithm

def all : List Algorithm := [.rsa, .curve .p256, .curve .p384, .edwards]

def rsaId : Bytes := [0x2A, 0x86, 0x48, 0x86, 0xF7, 0x0D, 0x01, 0x01, 0x01]
def curveId : Bytes := [0x2A, 0x86, 0x48, 0xCE, 0x3D, 0x02, 0x01]
def edwardsId : Bytes := [0x2B, 0x65, 0x70]

def identifier : Algorithm → Bytes
  | .rsa => write Tag.objectId rsaId ++ [0x05, 0x00]
  | .curve c => write Tag.objectId curveId ++ write Tag.objectId c.id
  | .edwards => write Tag.objectId edwardsId

def keyInfo (a : Algorithm) (key : Bytes) : Bytes :=
  write Tag.sequence a.identifier ++ write Tag.bitString (0 :: key)

end Algorithm

def passField (tag : UInt8) (accept : Bytes → Bool) : List Element → Option (List Element)
  | [] => some []
  | e :: es => if e.tag = tag then (if accept e.content then some es else none) else some (e :: es)

namespace Curve

def publicKeyOf? (c : Curve) (der : Bytes) : Option Bytes := do
  match ← sequence? der with
  | ⟨Tag.integer, [1]⟩ :: ⟨Tag.octetString, secret⟩ :: rest =>
    match ← passField Tag.field0 (· = write Tag.objectId c.id) rest with
    | [⟨Tag.field1, carried⟩] =>
      let key ← c.publicKey? secret
      if carried = write Tag.bitString (0 :: key) then return key else none
    | _ => none
  | _ => none

end Curve

namespace Edwards

def publicKeyOf? (der : Bytes) (carried : Option Bytes) : Option Bytes := do
  match ← row? der with
  | [⟨Tag.octetString, seed⟩] =>
    let key ← publicKey? seed
    if carried.all (· = key) then return key else none
  | _ => none

end Edwards

structure WrappedKey where
  identifier : Bytes
  secret : Bytes
  carried : Option Bytes
  deriving DecidableEq, Repr

namespace WrappedKey

/-- The public key that follows the private one. Two forms are in use. -/
def carried? : List Element → Option Bytes
  | [⟨Tag.plainField1, 0 :: key⟩] => some key
  | [⟨Tag.field1, content⟩] =>
    match row? content with
    | some [⟨Tag.bitString, 0 :: key⟩] => some key
    | _ => none
  | _ => none

def ofBytes? (der : Bytes) : Option WrappedKey := do
  match ← sequence? der with
  | ⟨Tag.integer, version⟩ :: ⟨Tag.sequence, identifier⟩ :: ⟨Tag.octetString, secret⟩ :: rest =>
    match version, ← passField Tag.field0 (fun _ => true) rest with
    | [0], [] => return ⟨identifier, secret, none⟩
    | [1], rest => return ⟨identifier, secret, some (← carried? rest)⟩
    | _, _ => none
  | _ => none

def publicKey? (k : WrappedKey) : Algorithm → Option Bytes
  | .rsa => if k.carried = none then Rsa.publicKey? k.secret else none
  | .curve c => if k.carried = none then c.publicKeyOf? k.secret else none
  | .edwards => Edwards.publicKeyOf? k.secret k.carried

def keyInfo? (k : WrappedKey) : Option Bytes := do
  let algorithm ← Algorithm.all.find? (·.identifier = k.identifier)
  return algorithm.keyInfo (← k.publicKey? algorithm)

end WrappedKey

/-- The public key that belongs to a private key in a file, in the form in which a certificate
holds it. The label says which form the private key has. -/
def keyInfo? (key : Pem.Part) : Option Bytes :=
  match key.kind with
  | .rsaKey => (Rsa.publicKey? key.der).map (Algorithm.keyInfo .rsa)
  | .pkcs8Key => (WrappedKey.ofBytes? key.der).bind WrappedKey.keyInfo?
  | .sec1Key =>
    [Curve.p256, .p384].findSome? fun c =>
      (c.publicKeyOf? key.der).map (Algorithm.keyInfo (.curve c))
  | _ => none

end ChatRelay.Tls

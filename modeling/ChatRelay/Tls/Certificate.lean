import ChatRelay.Tls.Der

/-! Certificates, as far as it takes to find the key that one is for: the third version of the
format, extensions that are well formed, and no extension that is critical and unknown. -/

namespace ChatRelay.Tls.Certificate

open Text (Bytes)
open Der

/-! ### Extensions -/

def extensionArc : Bytes := [0x55, 0x1D]

def keyUsage : UInt8 := 15

def knownExtensions : List UInt8 := [keyUsage, 17, 19, 30, 31, 37]

structure Extension where
  id : Bytes
  critical : Bool
  value : Bytes
  deriving DecidableEq, Repr

def truth? : Bytes → Option Bool
  | [0x00] => some false
  | [0xFF] => some true
  | _ => none

def Extension.ofElement? (e : Element) : Option Extension := do
  if e.tag ≠ Tag.sequence then none
  match ← row? e.content with
  | [⟨Tag.objectId, id⟩, ⟨Tag.octetString, value⟩] => return ⟨id, false, value⟩
  | [⟨Tag.objectId, id⟩, ⟨Tag.boolean, critical⟩, ⟨Tag.octetString, value⟩] =>
    return ⟨id, ← truth? critical, value⟩
  | _ => none

def Extension.known? (x : Extension) : Option UInt8 :=
  knownExtensions.find? fun n => x.id = extensionArc ++ [n]

/-- The value of a known extension is one sequence, except for the key usage. An unknown one may
be passed by unless it is critical. -/
def Extension.acceptable (x : Extension) : Bool :=
  match x.known? with
  | none => !x.critical
  | some n =>
    n = keyUsage || match row? x.value with
      | some [⟨Tag.sequence, _⟩] => true
      | _ => false

def distinct : List UInt8 → Bool
  | [] => true
  | n :: ns => !ns.contains n && distinct ns

def acceptable (xs : List Extension) : Bool :=
  xs.all Extension.acceptable && distinct (xs.filterMap Extension.known?)

def closes : List Element → Bool
  | [] => true
  | [⟨Tag.field3, content⟩] =>
    (((sequence? content).bind (·.mapM Extension.ofElement?)).map acceptable).getD false
  | _ => false

/-! ### The subject's key -/

def thirdVersion : Bytes := write Tag.integer [2]

/-- The subject's key: its algorithm and its bits, as the certificate holds them. The algorithm of
the signature is named outside and inside. -/
def keyInfo? (der : Bytes) : Option Bytes := do
  match ← sequence? der with
  | [⟨Tag.sequence, body⟩, ⟨Tag.sequence, algorithm⟩, ⟨Tag.bitString, 0 :: _⟩] =>
    match ← row? body with
    | ⟨Tag.field0, version⟩ :: ⟨Tag.integer, _⟩ :: ⟨Tag.sequence, algorithm'⟩ ::
        ⟨Tag.sequence, _⟩ :: ⟨Tag.sequence, _⟩ :: ⟨Tag.sequence, _⟩ :: ⟨Tag.sequence, info⟩ ::
        rest =>
      if version = thirdVersion ∧ algorithm = algorithm' ∧ closes rest then return info else none
    | _ => none
  | _ => none

end ChatRelay.Tls.Certificate

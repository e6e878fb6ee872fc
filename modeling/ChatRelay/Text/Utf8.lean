/-! Texts as bytes. A strict reading accepts UTF-8 only; a lossy one puts a replacement character
in the place of every start that breaks off. -/

namespace ChatRelay.Text

abbrev Bytes := List UInt8

def toBytes (s : String) : Bytes :=
  s.toByteArray.data.toList

def ofBytes? (bs : Bytes) : Option String :=
  String.fromUTF8? ⟨bs.toArray⟩

theorem toBytes_append (s t : String) : toBytes (s ++ t) = toBytes s ++ toBytes t := by
  simp [toBytes]

theorem ofBytes?_toBytes (s : String) : ofBytes? (toBytes s) = some s := by
  simp [ofBytes?, toBytes, String.fromUTF8?, String.fromUTF8, s.isValidUTF8]

theorem toBytes_of_ofBytes? {bs : Bytes} {s : String} (h : ofBytes? bs = some s) :
    toBytes s = bs := by
  simp only [ofBytes?, String.fromUTF8?] at h
  split at h <;> simp_all [String.fromUTF8]
  subst h
  rfl

namespace Utf8

/-- What stands at the front of some bytes: a character, or a start that is never completed. -/
inductive Front
  | whole (c : Char) (size : Nat)
  | broken (size : Nat)

def width? (lead : UInt8) : Option Nat :=
  if lead < 0x80 then some 1
  else if lead < 0xC2 then none
  else if lead < 0xE0 then some 2
  else if lead < 0xF0 then some 3
  else if lead < 0xF5 then some 4
  else none

def leadBits (lead : UInt8) : Nat → Nat
  | 1 => lead.toNat
  | 2 => lead.toNat - 0xC0
  | 3 => lead.toNat - 0xE0
  | _ => lead.toNat - 0xF0

/-- Range of the byte after a lead byte: it rules out spellings that are too long, surrogates and
values past the last plane. -/
def secondRange (lead : UInt8) : UInt8 × UInt8 :=
  if lead == 0xE0 then (0xA0, 0xBF)
  else if lead == 0xED then (0x80, 0x9F)
  else if lead == 0xF0 then (0x90, 0xBF)
  else if lead == 0xF4 then (0x80, 0x8F)
  else (0x80, 0xBF)

def follow (size value : Nat) (range : UInt8 × UInt8) : Nat → Bytes → Front
  | 0, _ => .whole (Char.ofNat value) size
  | _ + 1, [] => .broken size
  | n + 1, b :: bs =>
    if range.1 ≤ b && b ≤ range.2 then
      follow (size + 1) (value * 64 + (b.toNat - 0x80)) (0x80, 0xBF) n bs
    else .broken size

def front (lead : UInt8) (bs : Bytes) : Front :=
  match width? lead with
  | none => .broken 1
  | some n => follow 1 (leadBits lead n) (secondRange lead) (n - 1) bs

def replacement : Char := Char.ofNat 0xFFFD

/-- Each step takes at least a byte, so the number of bytes bounds the number of steps. -/
def mend : Nat → Bytes → List Char
  | 0, _ => []
  | _, [] => []
  | n + 1, b :: bs =>
    match front b bs with
    | .whole c size => c :: mend n (bs.drop (size - 1))
    | .broken size => replacement :: mend n (bs.drop (size - 1))

end Utf8

def ofBytesLossy (bs : Bytes) : String :=
  String.ofList (Utf8.mend bs.length bs)

end ChatRelay.Text

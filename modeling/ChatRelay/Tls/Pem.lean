import ChatRelay.Text.Printable
import ChatRelay.Tls.Base64

/-! Sections of credential files. A section stands between a line that begins it and a line that
ends it under the same label; text around sections, and sections under other labels, mean
nothing. -/

namespace ChatRelay.Tls.Pem

open Text (Bytes)

inductive Fault
  | badStart (line : Bytes)
  | unclosed (label : Bytes)
  | base64 (fault : Base64.Fault)
  deriving DecidableEq, Repr

def quotedChar (c : Char) : List Char :=
  if c = '"' then ['\\', '"']
  else if c = '\\' then ['\\', '\\']
  else if c = '\n' then ['\\', 'n']
  else if c = '\r' then ['\\', 'r']
  else if c = '\t' then ['\\', 't']
  else if c.toNat = 0 then ['\\', '0']
  else if Text.isPrintable c then [c]
  else ['\\', 'u', Char.ofNat 0x7B] ++ Nat.toDigits 16 c.toNat ++ [Char.ofNat 0x7D]

def quoted (bs : Bytes) : String :=
  "\"" ++ String.ofList ((Text.ofBytesLossy bs).toList.flatMap quotedChar) ++ "\""

def Fault.describe : Fault → String
  | .badStart line => "illegal section start: " ++ quoted line
  | .unclosed label => "section end " ++ quoted label ++ " missing"
  | .base64 fault => fault.describe

inductive Kind
  | certificate
  | publicKey
  | rsaKey
  | pkcs8Key
  | sec1Key
  | revocations
  | request
  | helloConfig
  deriving DecidableEq, Repr

def Kind.ofLabel? (label : Bytes) : Option Kind :=
  [("CERTIFICATE", certificate), ("PUBLIC KEY", publicKey), ("RSA PRIVATE KEY", rsaKey),
    ("PRIVATE KEY", pkcs8Key), ("EC PRIVATE KEY", sec1Key), ("X509 CRL", revocations),
    ("CERTIFICATE REQUEST", request), ("ECHCONFIG", helloConfig)].findSome? fun (name, kind) =>
      if Text.toBytes name = label then some kind else none

structure Part where
  kind : Kind
  der : Bytes
  deriving DecidableEq, Repr

def lines : Bytes → List Bytes
  | [] => []
  | b :: bs =>
    if b == 10 || b == 13 then [b] :: lines bs
    else match lines bs with
      | [] => [[b]]
      | l :: ls => (b :: l) :: ls

def beginMark : Bytes := Text.toBytes "-----BEGIN "

def endMark (label : Bytes) : Bytes :=
  Text.toBytes "-----END " ++ label ++ Text.toBytes "-----"

def isTrailer (b : UInt8) : Bool := b == 45 || b == 10 || b == 13 || b == 32

def labelOf (line : Bytes) : Except Fault Bytes :=
  let trailer := line.reverse.takeWhile isTrailer
  if trailer.count 45 ≠ 5 then .error (.badStart line)
  else
    let afterDashes := trailer.reverse.dropWhile (· != 45)
    .ok ((line.take (line.length - afterDashes.length)).drop beginMark.length)

def read : Option Bytes → Bytes → List Bytes → List (Except Fault Part)
  | none, _, [] => []
  | some label, _, [] => [.error (.unclosed label)]
  | current, body, line :: rest =>
    if beginMark.isPrefixOf line then
      match labelOf line with
      | .error fault => [.error fault]
      | .ok label => read (some label) body rest
    else match current with
      | none => read none body rest
      | some label =>
        if (endMark label).isPrefixOf line then
          match Kind.ofLabel? label with
          | none => read none [] rest
          | some kind =>
            match Base64.decode body with
            | .error fault => [.error (.base64 fault)]
            | .ok der => .ok ⟨kind, der⟩ :: read none [] rest
        else read current (body ++ line) rest

def parts (bs : Bytes) : List (Except Fault Part) := read none [] (lines bs)

def certificates (bs : Bytes) : Except Fault (List Bytes) :=
  ((parts bs).mapM id).map fun ps => (ps.filter (·.kind = .certificate)).map (·.der)

def isKey (p : Part) : Bool := p.kind = .rsaKey || p.kind = .pkcs8Key || p.kind = .sec1Key

def firstKey : List (Except Fault Part) → Except Fault (Option Part)
  | [] => .ok none
  | .error fault :: _ => .error fault
  | .ok p :: ps => if isKey p then .ok (some p) else firstKey ps

def privateKey (bs : Bytes) : Except Fault (Option Part) := firstKey (parts bs)

end ChatRelay.Tls.Pem

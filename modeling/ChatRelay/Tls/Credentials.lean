import ChatRelay.Fault
import ChatRelay.Tls.Certificate
import ChatRelay.Tls.Key

/-! What the secure listener shows and signs with: a chain of certificates and the private key of
the first. The two are read from files and have to fit together. -/

namespace ChatRelay.Tls

open Text (Bytes)

structure File where
  path : String
  content : Option Bytes
  deriving DecidableEq, Repr

inductive LoadFault
  | unreadable (path : String) (fault : IoFault)
  | malformed (path : String) (fault : Pem.Fault)
  | noCertificates (path : String)
  | noKey (path : String)
  | mismatch
  deriving DecidableEq, Repr

def LoadFault.describe : LoadFault → String
  | .unreadable path fault => path ++ ": " ++ fault.describe
  | .malformed path fault => path ++ ": " ++ fault.describe
  | .noCertificates path => path ++ ": no certificates found"
  | .noKey path => path ++ ": no private key found"
  | .mismatch => "invalid certificate or key"

structure Credentials where
  chain : List Bytes
  key : Pem.Part
  deriving DecidableEq, Repr

def File.bytes (file : File) : Except LoadFault Bytes :=
  (file.content.map .ok).getD (.error (.unreadable file.path .noSuchFile))

namespace Credentials

def readChain (file : File) : Except LoadFault (List Bytes) := do
  match Pem.certificates (← file.bytes) with
  | .error fault => throw (.malformed file.path fault)
  | .ok [] => throw (.noCertificates file.path)
  | .ok chain => return chain

def readKey (file : File) : Except LoadFault Pem.Part := do
  match Pem.privateKey (← file.bytes) with
  | .error fault => throw (.malformed file.path fault)
  | .ok none => throw (.noKey file.path)
  | .ok (some key) => return key

def belongs (key : Pem.Part) (certificate : Bytes) : Bool :=
  match keyInfo? key, Certificate.keyInfo? certificate with
  | some info, some certified => info = certified
  | _, _ => false

def load (cert key : File) : Except LoadFault Credentials := do
  let chain ← readChain cert
  let key ← readKey key
  if chain.head?.any (belongs key) then return ⟨chain, key⟩ else throw .mismatch

end Credentials
end ChatRelay.Tls

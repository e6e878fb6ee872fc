/-! The bounds within which a relay works. -/

namespace ChatRelay

structure Limits where
  nameLength : Nat
  roomMembers : Nat
  outboundQueue : Nat
  messageSize : Nat
  mailbox : Nat
  deriving DecidableEq, Repr

def Limits.standard : Limits where
  nameLength := 20
  roomMembers := 100
  outboundQueue := 100
  messageSize := 1 <<< 20
  mailbox := 256

end ChatRelay

import ChatRelay.Health
import ChatRelay.Relay

/-! A relay behind its listeners, one for each transport and one for the health endpoint. They
admit clients while they accept and while the network lets clients through. -/

namespace ChatRelay

structure Listeners where
  relay : Relay
  reachable : Bool
  accepting : Bool

namespace Listeners

def start (relay : Relay) (reachable : Bool) : Listeners := ⟨relay, reachable, true⟩

def open? (l : Listeners) : Bool := l.reachable && l.accepting

def wire (limits : Limits) : Transport → Wire
  | .line => .lines (1 <<< 20) limits.messageSize false
  | .webSocket | .secureWebSocket => .messages false

def connect (l : Listeners) (remoteId : String) (transport : Transport) :
    Option SessionId × Listeners :=
  if !l.open? then (none, l)
  else
    let limits := l.relay.hub.limits
    let id := l.relay.hub.pool.size
    let relay := l.relay.create (.create remoteId transport limits.outboundQueue)
    match relay.ask (.join id) with
    | (.error _, relay) => (none, { l with relay := relay.forget id })
    | (.ok _, relay) =>
      (some id, { l with relay := (relay.drive id (wire limits transport)).forget id })

def bindFault? (transport : Transport) (credentials inUse : Bool) : Option Fault :=
  if transport = .secureWebSocket ∧ !credentials then
    some (.config "secure WebSocket listener needs TLS credentials")
  else if inUse then some (.io .addressInUse)
  else none

def stopAccepting (l : Listeners) : Listeners := { l with accepting := false }

def health (l : Listeners) (request : String) : Option (String × String) :=
  if l.open? then some (Health.answer l.relay.hub.status request) else none

end Listeners
end ChatRelay

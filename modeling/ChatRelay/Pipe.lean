import ChatRelay.Line

/-! A byte pipe between a client and its connection. It has room for so many bytes each way; what
finds no room waits with whoever writes it. -/

namespace ChatRelay

open Text (Bytes)

structure Pipe where
  size : Nat
  decoder : Line.Decoder
  unsent : Bytes
  arrived : Bytes
  /-- What was written to the client. The first `size` bytes of it are in the pipe. -/
  outbound : Bytes
  started : Bytes
  deriving DecidableEq, Repr

namespace Pipe

def create (size limit : Nat) : Pipe where
  size
  decoder := .start limit
  unsent := []
  arrived := []
  outbound := []
  started := []

def supply (p : Pipe) : Pipe :=
  let room := p.size - p.arrived.length
  { p with arrived := p.arrived ++ p.unsent.take room, unsent := p.unsent.drop room }

def send (p : Pipe) (bytes : Bytes) : Pipe := supply { p with unsent := p.unsent ++ bytes }

def fetch (p : Pipe) : List Line.Item × Pipe :=
  let (items, decoder) := p.decoder.push p.arrived
  (items, { p with decoder, arrived := [] })

def put (p : Pipe) (text : String) : Pipe := { p with outbound := p.outbound ++ Line.encode text }

def full (p : Pipe) : Bool := p.size < p.outbound.length

def take (p : Pipe) : List String × Pipe :=
  let pieces := (p.started ++ p.outbound.take p.size).splitOn Line.feed
  (pieces.dropLast.map Text.ofBytesLossy,
    { p with outbound := p.outbound.drop p.size, started := pieces.getLast?.getD [] })

def cut (p : Pipe) : Pipe := { p with outbound := p.outbound.take p.size }

theorem full_cut (p : Pipe) : p.cut.full = false :=
  decide_eq_false (by simp only [cut, List.length_take]; omega)

theorem arrived_append_unsent_supply (p : Pipe) :
    p.supply.arrived ++ p.supply.unsent = p.arrived ++ p.unsent := by
  simp [supply]

end Pipe
end ChatRelay

import ChatRelay.Fault
import ChatRelay.Text.Lines
import ChatRelay.Text.Utf8

/-! The line protocol: bytes in, one unit of text for every line feed. A line has at most `limit`
bytes before its feed; a longer one is reported once and dropped up to its feed. -/

namespace ChatRelay.Line

open Text (Bytes)

abbrev Item := Except LineFault String

def feed : UInt8 := 10

def carriageReturn : UInt8 := 13

def read (limit : Nat) (line : Bytes) : Item :=
  if limit < line.length then .error .tooLong
  else match Text.ofBytes? (Text.dropFinal carriageReturn line) with
    | some text => .ok text
    | none => .error .notUtf8

/-- The bytes after the last feed, or, when `skipping`, the knowledge that they belong to a line
that was already reported. -/
structure Decoder where
  limit : Nat
  rest : Bytes
  skipping : Bool
  deriving DecidableEq, Repr

namespace Decoder

def start (limit : Nat) : Decoder := ⟨limit, [], false⟩

def readPieces (limit : Nat) : List Bytes → List Item × Decoder
  | [] => ([], start limit)
  | [rest] =>
    if limit < rest.length then ([.error .tooLong], ⟨limit, [], true⟩)
    else ([], ⟨limit, rest, false⟩)
  | line :: pieces =>
    let (items, d) := readPieces limit pieces
    (read limit line :: items, d)

def push (d : Decoder) (bytes : Bytes) : List Item × Decoder :=
  if d.skipping then
    match bytes.splitOn feed with
    | _ :: piece :: pieces => readPieces d.limit (piece :: pieces)
    | _ => ([], d)
  else readPieces d.limit ((d.rest ++ bytes).splitOn feed)

/-- What the end of input completes: a non-empty rest is a line, except a lone carriage return. -/
def finish (d : Decoder) : List Item :=
  if d.rest = [] ∨ d.rest = [carriageReturn] then [] else [read d.limit d.rest]

end Decoder

def encode (text : String) : Bytes :=
  Text.toBytes text ++ [feed]

end ChatRelay.Line

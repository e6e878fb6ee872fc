/-! Socket addresses as text: four decimal octets, or groups of hexadecimal digits in brackets,
and the number of the service after a colon. -/

namespace ChatRelay

inductive Ip
  | v4 (octets : List Nat)
  /-- Eight groups of sixteen bits, and a scope that is zero when none is written. -/
  | v6 (groups : List Nat) (scope : Nat)
  deriving DecidableEq, Repr

structure Address where
  ip : Ip
  service : Nat
  deriving DecidableEq, Repr

namespace Address

/-! ### Reading -/

abbrev Reads (α : Type) := List Char → Option (α × List Char)

def hexValue? (c : Char) : Option Nat :=
  if c.isDigit then some (c.toNat - '0'.toNat)
  else if 'a' ≤ c && c ≤ 'f' then some (c.toNat - 'a'.toNat + 10)
  else if 'A' ≤ c && c ≤ 'F' then some (c.toNat - 'A'.toNat + 10)
  else none

def digitOf? (radix : Nat) (c : Char) : Option Nat :=
  (hexValue? c).filter (· < radix)

def readChar (c : Char) : Reads Unit
  | d :: cs => if d = c then some ((), cs) else none
  | [] => none

def readNumber (radix bound : Nat) (most : Option Nat) (leadingZero : Bool) : Reads Nat := fun cs =>
  let ds := cs.takeWhile fun c => (digitOf? radix c).isSome
  let n := (ds.filterMap (digitOf? radix)).foldl (fun n d => radix * n + d) 0
  if ds.isEmpty || most.any (· < ds.length) || bound ≤ n then none
  else if !leadingZero && ds.head? == some '0' && 1 < ds.length then none
  else some (n, cs.drop ds.length)

def readOctet : Reads Nat := readNumber 10 256 (some 3) false

def readGroup : Reads Nat := readNumber 16 65536 (some 4) true

def readV4 : Reads (List Nat) := fun cs => do
  let (a, cs) ← readOctet cs
  let (_, cs) ← readChar '.' cs
  let (b, cs) ← readOctet cs
  let (_, cs) ← readChar '.' cs
  let (c, cs) ← readOctet cs
  let (_, cs) ← readChar '.' cs
  let (d, cs) ← readOctet cs
  return ([a, b, c, d], cs)

def readV4Groups : Reads (List Nat) := fun cs => do
  match ← readV4 cs with
  | ([a, b, c, d], cs) => return ([256 * a + b, 256 * c + d], cs)
  | _ => none

/-- Reads up to `room` groups with colons between them; four octets may stand for the last two.
Says also whether they did. -/
def readGroups (first : Bool) : Nat → List Char → List Nat × Bool × List Char
  | 0, cs => ([], false, cs)
  | room + 1, cs =>
    let start := if first then some cs else (readChar ':' cs).map (·.2)
    match if room = 0 then none else start.bind readV4Groups with
    | some (groups, rest) => (groups, true, rest)
    | none =>
      match start.bind readGroup with
      | none => ([], false, cs)
      | some (g, rest) =>
        let (groups, octets, rest) := readGroups false room rest
        (g :: groups, octets, rest)

def readV6 : Reads (List Nat) := fun cs =>
  let (head, octets, rest) := readGroups true 8 cs
  if head.length = 8 then some (head, rest)
  else if octets then none
  else do
    let (_, rest) ← readChar ':' rest
    let (_, rest) ← readChar ':' rest
    let (tail, _, rest) := readGroups true (7 - head.length) rest
    return (head ++ List.replicate (8 - head.length - tail.length) 0 ++ tail, rest)

def readScope : Reads Nat := fun cs => do
  let (_, cs) ← readChar '%' cs
  readNumber 10 (1 <<< 32) none true cs

def readService : Reads Nat := fun cs => do
  let (_, cs) ← readChar ':' cs
  readNumber 10 65536 none true cs

def readIp : Reads Ip := fun cs =>
  match readV4 cs with
  | some (octets, cs) => some (.v4 octets, cs)
  | none => do
    let (_, cs) ← readChar '[' cs
    let (groups, cs) ← readV6 cs
    let (scope, cs) := (readScope cs).getD (0, cs)
    let (_, cs) ← readChar ']' cs
    return (.v6 groups scope, cs)

def parse? (s : String) : Option Address := do
  let (ip, cs) ← readIp s.toList
  let (service, cs) ← readService cs
  if cs.isEmpty then return ⟨ip, service⟩ else none

/-! ### Writing -/

def octetsText (octets : List Nat) : String :=
  ".".intercalate (octets.map toString)

def groupText (g : Nat) : String := String.ofList (Nat.toDigits 16 g)

def groupsText (groups : List Nat) : String :=
  ":".intercalate (groups.map groupText)

def zeroRuns : List Nat → List Nat
  | [] => []
  | g :: gs =>
    let runs := zeroRuns gs
    (if g = 0 then runs.headD 0 + 1 else 0) :: runs

def longestZeros (groups : List Nat) : Nat × Nat :=
  let runs := zeroRuns groups
  let longest := runs.foldl max 0
  (runs.idxOf longest, longest)

/-- Addresses that carry four octets show them; else the first longest run of two zeros or more is
left out. -/
def v6Text (groups : List Nat) : String :=
  match groups with
  | [0, 0, 0, 0, 0, 0xFFFF, a, b] =>
    "::ffff:" ++ octetsText [a / 256, a % 256, b / 256, b % 256]
  | groups =>
    let (start, length) := longestZeros groups
    if length < 2 then groupsText groups
    else groupsText (groups.take start) ++ "::" ++ groupsText (groups.drop (start + length))

def ipText : Ip → String
  | .v4 octets => octetsText octets
  | .v6 groups scope =>
    "[" ++ v6Text groups ++ (if scope = 0 then "" else "%" ++ toString scope) ++ "]"

def text (a : Address) : String := ipText a.ip ++ ":" ++ toString a.service

end Address
end ChatRelay

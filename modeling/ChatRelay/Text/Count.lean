/-! Counts as people type them: an optional plus sign and decimal digits, within a bound. -/

namespace ChatRelay.Text

def countBound : Nat := 1 <<< 64

def digitValue? (c : Char) : Option Nat :=
  if c.isDigit then some (c.toNat - '0'.toNat) else none

def digits? (n : Nat) : List Char → Option Nat
  | [] => some n
  | c :: cs => (digitValue? c).bind fun d => digits? (10 * n + d) cs

def count? (bound : Nat) (cs : List Char) : Option Nat :=
  let ds := match cs with
    | '+' :: ds => ds
    | ds => ds
  if ds.isEmpty then none
  else (digits? 0 ds).filter (· < bound)

end ChatRelay.Text

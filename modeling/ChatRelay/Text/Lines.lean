/-! Texts cut into lines. A line ends at a line feed; a carriage return before the feed belongs to
the ending when lines are read back. -/

namespace ChatRelay.Text

def dropFinal {α : Type} [DecidableEq α] (a : α) (xs : List α) : List α :=
  if xs.getLast? = some a then xs.dropLast else xs

/-- The lines of a file: every piece that a line feed ends, and a last piece without one when it
is not empty. -/
def fileLines (cs : List Char) : List (List Char) :=
  let pieces := cs.splitOn '\n'
  pieces.dropLast.map (dropFinal '\r') ++ (pieces.getLast?.filter (!·.isEmpty)).toList

def lines (s : String) : List String :=
  (fileLines s.toList).map String.ofList

def lastN {α : Type} (n : Nat) (xs : List α) : List α :=
  xs.drop (xs.length - n)

end ChatRelay.Text

/-! Paths as texts. Slashes divide a path into pieces, and a path that begins with a slash starts
from the root of everything. -/

namespace ChatRelay.Pathname

def isAbsolute (path : String) : Bool := path.toList.head? = some '/'

def pieces (path : String) : List String := (path.toList.splitOn '/').map String.ofList

/-- Goes on from `base` along a path, unless that one starts from the root. -/
def join (base path : String) : String :=
  if isAbsolute path then path
  else if base.toList.getLast?.all (· = '/') then base ++ path
  else base ++ "/" ++ path

theorem pieces_append (front more : String) :
    pieces (front ++ "/" ++ more) = pieces front ++ pieces more := by
  have hlist : (front ++ "/" ++ more).toList = front.toList ++ '/' :: more.toList := by simp
  rw [pieces, hlist, List.splitOn_append_cons_self, List.map_append, pieces, pieces]

theorem pieces_eq_singleton {name : String} (h : '/' ∉ name.toList) : pieces name = [name] := by
  rw [pieces, List.splitOn_eq_singleton h, List.map_singleton, String.ofList_toList]

theorem pieces_ne_nil (path : String) : pieces path ≠ [] := by
  simp [pieces]

end ChatRelay.Pathname

/-! Request targets: where a request for a page points. A target is a path with perhaps a query, an
address that leads to one through a host, the host alone, or a star. -/

namespace ChatRelay.Health.Target

def isPathChar (c : Char) : Bool := ' ' < c && !"#<>?`".toList.contains c

def isQueryChar (c : Char) : Bool := ' ' < c && !"\"#<>".toList.contains c

def leadingPath? (cs : List Char) : Option String :=
  let located := cs.takeWhile (· != '#')
  let path := located.takeWhile (· != '?')
  let query := (located.drop path.length).drop 1
  if path.all isPathChar && query.all isQueryChar then
    some (if path.isEmpty then "/" else String.ofList path)
  else none

/-! ### Hosts -/

def isHostChar (c : Char) : Bool := c.isAlphanum || "!$&'()*+,-.;=_~".toList.contains c

/-- What was met in a host. Colons and escapes in front of an at sign or a closing bracket do not
count. -/
structure Met where
  colons : Nat
  escape : Bool
  opened : Bool
  closed : Bool

namespace Met

def nothing : Met := ⟨0, false, false, false⟩

def read? (m : Met) (c : Char) : Option Met :=
  if c = ':' then if m.colons < 8 then some { m with colons := m.colons + 1 } else none
  else if c = '[' then if m.escape || m.opened then none else some { m with opened := true }
  else if c = ']' then if m.opened && !m.closed then some ⟨0, false, true, true⟩ else none
  else if c = '@' then some { m with colons := 0, escape := false }
  else if c = '%' then some { m with escape := true }
  else if isHostChar c then some m
  else none

def complete (m : Met) : Bool := m.opened == m.closed && m.colons ≤ 1 && !m.escape

end Met

def isHost (cs : List Char) : Bool :=
  !cs.isEmpty && cs.getLast? != some '@' && (cs.foldlM Met.read? .nothing).any Met.complete

/-! ### Targets -/

def isSchemeChar (c : Char) : Bool := c.isAlphanum || "+-.~".toList.contains c

def afterScheme? (cs : List Char) : Option (List Char) :=
  let scheme := cs.takeWhile isSchemeChar
  match cs.drop scheme.length with
  | ':' :: '/' :: '/' :: rest => if scheme.length ≤ 64 then some rest else none
  | _ => none

def endsHost (c : Char) : Bool := c = '/' || c = '?' || c = '#'

def pathOfAddress? (cs : List Char) : Option String :=
  let host := cs.takeWhile (!endsHost ·)
  if isHost host then leadingPath? (cs.drop host.length) else none

def maxSize : Nat := 65534

def path? (target : String) : Option String :=
  let cs := target.toList
  if maxSize < target.utf8ByteSize then none
  else if cs.head? = some '/' then leadingPath? cs
  else if target = "*" then some target
  else match afterScheme? cs with
    | some rest => pathOfAddress? rest
    | none => if isHost cs then some "" else none

end ChatRelay.Health.Target

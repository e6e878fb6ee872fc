import ChatRelay.Fault
import ChatRelay.Pathname
import ChatRelay.Registry
import ChatRelay.Text.Lines
import ChatRelay.Text.Utf8

/-! Chat logs as text files: one for the open chat, one for each room, one for each pair of people.
A log grows by a line at a time and is read from its end. -/

namespace ChatRelay

inductive Folder
  | global
  | rooms
  | pairs
  deriving DecidableEq, Repr

def Folder.text : Folder → String
  | .global => "global"
  | .rooms => "rooms"
  | .pairs => "private"

structure LogFile where
  folder : Folder
  name : String
  deriving DecidableEq, Repr

namespace LogFile

def unsafeChar (c : Char) : Bool :=
  c = '/' || c = '\\' || c = '.' || c = ':' || Text.isControl c

def sanitize (name : String) : String :=
  String.ofList (name.toList.map fun c => if unsafeChar c then '_' else c)

def openChat : LogFile := ⟨.global, "history.txt"⟩

def room (name : String) : LogFile := ⟨.rooms, sanitize name ++ ".txt"⟩

/-- The two names are sorted, so that both directions share a file. -/
def pair (a b : String) : LogFile :=
  let (first, second) := if a ≤ b then (a, b) else (b, a)
  ⟨.pairs, sanitize first ++ "_" ++ sanitize second ++ ".txt"⟩

def ofScope : Option String → LogFile
  | some name => room name
  | none => openChat

abbrev Place := List String

def place (file : LogFile) : Place := [file.folder.text, file.name]

def path (file : LogFile) : String := "/".intercalate file.place

def pathFrom (root : String) (file : LogFile) : String :=
  Pathname.join (Pathname.join root file.folder.text) file.name

end LogFile

open LogFile (Place)

def nameTooLong (name : String) : Bool := 255 < name.utf8ByteSize

def LogFile.nameTooLong (file : LogFile) : Bool := ChatRelay.nameTooLong file.name

inductive Archived
  | text (content : String)
  | binary (bytes : Text.Bytes)
  | directory
  deriving DecidableEq, Repr

def Archived.ofBytes (bytes : Text.Bytes) : Archived :=
  (Text.ofBytes? bytes).elim (.binary bytes) .text

structure Archive where
  entries : Registry Place Archived

namespace Archive

def folders : List Folder := [.global, .rooms, .pairs]

def empty : Archive :=
  ⟨folders.foldl (fun entries folder => entries.insert [folder.text] .directory) .empty⟩

def get? (a : Archive) (file : LogFile) : Option Archived := a.entries.get? file.place

def insert (a : Archive) (place : Place) (x : Archived) : Archive := ⟨a.entries.insert place x⟩

def line (stamp sender body : String) : String :=
  stamp ++ " [" ++ sender ++ "]: " ++ body

/-- Adds a line to a log. What cannot be written is lost silently. -/
def append (a : Archive) (file : LogFile) (line : String) : Archive :=
  if file.nameTooLong then a
  else match a.get? file with
    | none => a.insert file.place (.text (line ++ "\n"))
    | some (.text content) => a.insert file.place (.text (content ++ line ++ "\n"))
    | some (.binary bytes) =>
      a.insert file.place (.binary (bytes ++ Text.toBytes (line ++ "\n")))
    | some .directory => a

/-- The last `limit` lines of a log, oldest first. A log that was never written is empty. -/
def tail (a : Archive) (file : LogFile) (limit : Nat) : Except Fault (List String) :=
  if file.nameTooLong then .error (.io .nameTooLong)
  else match a.get? file with
    | none => .ok []
    | some (.text content) => .ok (Text.lastN limit (Text.lines content))
    | some (.binary _) => .error (.io .notUtf8)
    | some .directory => .error (.io .isDirectory)

def files (a : Archive) : List (LogFile × Archived) :=
  a.entries.entries.filterMap fun (place, x) =>
    match place with
    | [folder, name] => (folders.find? (·.text = folder)).map fun folder => (⟨folder, name⟩, x)
    | _ => none

/-! ### Changes from outside -/

def isDirectory (a : Archive) (place : Place) : Bool :=
  place.isEmpty || a.entries.get? place == some .directory

def follow (a : Archive) : Place → List String → Option Place
  | place, [] => some place
  | place, name :: names =>
    if name = "" ∨ name = "." then a.follow place names
    else if name = ".." then
      if a.isDirectory place ∧ place ≠ [] then a.follow place.dropLast names else none
    else if name.toList.any (·.toNat = 0) then none
    else a.follow (place ++ [name]) names

def resolve? (a : Archive) (path : String) : Option Place :=
  if Pathname.isAbsolute path then none else a.follow [] (Pathname.pieces path)

def write? (a : Archive) (path : String) (bytes : Text.Bytes) : Option Archive := do
  let place ← a.resolve? path
  let name ← place.getLast?
  if path.endsWith "/" ∨ nameTooLong name ∨ !a.isDirectory place.dropLast ∨ a.isDirectory place then
    none
  else return a.insert place (.ofBytes bytes)

def makeBelow (a : Archive) (place : Place) : List String → Bool × Archive
  | [] => (true, a)
  | name :: names =>
    let next := place ++ [name]
    if nameTooLong name then (false, a)
    else match a.entries.get? next with
      | some .directory => a.makeBelow next names
      | some _ => (false, a)
      | none => (a.insert next .directory).makeBelow next names

def makeDirectory (a : Archive) (path : String) : Bool × Archive :=
  match a.resolve? path with
  | none => (false, a)
  | some place => a.makeBelow [] place

end Archive
end ChatRelay

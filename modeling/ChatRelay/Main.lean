import ChatRelay.Listener
import ChatRelay.Options
import ChatRelay.Tls.Credentials
import Std.Time.Format
import Std.Time.Zoned

/-! The command line. It reads the options, serves one client over the line protocol on standard
input and output, and keeps the logs as files. -/

namespace ChatRelay.CommandLine

def programName : String := "chat-relay"

def usage : String :=
  "Usage: " ++ programName ++ " [OPTIONS]\n\nOptions:\n" ++
    "".intercalate (Setting.all.map fun s =>
      "  --" ++ s.name ++ (if s.kind = .toggle then "" else " <VALUE>") ++ "\n")

def describe : UsageFault → String
  | .valueInvalid => "invalid value for an option"
  | .valueMissing => "an option needs a value"
  | .unknownArgument => "unexpected argument"
  | .unwantedValue => "an option takes no value"
  | .repeated => "an option is given twice"
  | .helpAsked => usage
  | .versionAsked => programName ++ " 0.1.0"

def environment : IO (List (String × String)) :=
  (Setting.all.filterMap Setting.envName).filterMapM fun name => do
    return (← IO.getEnv name).map (name, ·)

def stamp : IO String := do
  return (← Std.Time.PlainDateTime.now).format "uuuu-MM-dd HH:mm:ss"

def readFile (path : String) : IO (Option Text.Bytes) := do
  try return some (← IO.FS.readBinFile path).toList
  catch _ => return none

/-! ### Logs -/

def openLogs (root : String) : IO Unit :=
  for folder in [Folder.global, .rooms, .pairs] do
    IO.FS.createDirAll (Pathname.join root folder.text)

def loadLog (root : String) (file : LogFile) (a : Archive) : IO Archive := do
  if (a.get? file).isSome then return a
  match ← readFile (file.pathFrom root) with
  | some bytes => return a.insert file.place (.ofBytes bytes)
  | none => return a

def content (a : Archive) (file : LogFile) : Text.Bytes :=
  match a.get? file with
  | some (.text s) => Text.toBytes s
  | some (.binary bytes) => bytes
  | _ => []

def saveLogs (root : String) (before after : Archive) : IO Unit :=
  for (file, _) in after.files do
    let added := (content after file).drop (content before file).length
    unless added.isEmpty do
      try
        let handle ← IO.FS.Handle.mk (file.pathFrom root) .append
        handle.write ⟨added.toArray⟩
      catch _ => pure ()

/-! ### Serving -/

structure Server where
  relay : Relay
  client : SessionId
  root : Option String

def Server.archive (s : Server) : Archive := s.relay.hub.archive.getD .empty

def Server.prepare (s : Server) (line : String) : IO Server := do
  let some root := s.root | return s
  let file := match Command.parse line with
    | .join room => LogFile.room room
    | _ => .openChat
  let archive ← loadLog root file s.archive
  let stamp ← stamp
  return { s with relay.hub.archive := some archive, relay.hub.stamp := stamp }

def Server.perform (s : Server) (action : Relay → Relay) : IO Server := do
  let relay := action s.relay
  if let some root := s.root then
    saveLogs root s.archive (relay.hub.archive.getD .empty)
  let (texts, relay) := relay.receive s.client
  for text in texts do IO.println text
  (← IO.getStdout).flush
  return { s with relay }

partial def Server.run (s : Server) (input : IO.FS.Stream) : IO Unit := do
  if (s.relay.connection? s.client).all (·.ended) then return
  let line ← input.getLine
  if line.isEmpty then
    let _ ← s.perform (·.onWire s.client (·.finish))
  else
    let s ← s.prepare line
    (← s.perform (·.onWire s.client (·.sendBytes (Text.toBytes line)))).run input

def serve (limits : Limits) (root : Option String) : IO UInt32 := do
  if let some root := root then openLogs root
  let archive := root.map fun _ => Archive.empty
  let listeners := Listeners.start (.start limits archive (← stamp)) true
  match listeners.connect "local" .line with
  | (none, _) => return 1
  | (some client, listeners) =>
    let s : Server := ⟨listeners.relay, client, root⟩
    (← s.perform id).run (← IO.getStdin)
    return 0

def fail (fault : Fault) : IO UInt32 := do
  IO.eprintln ("Error: " ++ fault.describe)
  return 1

def loadCredentials (cert key : String) : IO (Except Fault Tls.Credentials) := do
  let cert : Tls.File := ⟨cert, ← readFile cert⟩
  let key : Tls.File := ⟨key, ← readFile key⟩
  return (Tls.Credentials.load cert key).mapError fun e => .tls e.describe

def runWith (o : Options) : IO UInt32 := do
  match o.limits, o.tlsPaths with
  | .error fault, _ | _, .error fault => fail fault
  | .ok limits, .ok none => serve limits o.historyRoot
  | .ok limits, .ok (some (cert, key)) =>
    match ← loadCredentials cert key with
    | .error fault => fail fault
    | .ok _ => serve limits o.historyRoot

end ChatRelay.CommandLine

open ChatRelay CommandLine in
def main (args : List String) : IO UInt32 := do
  let env ← environment
  match Options.parse args (fun name => env.lookup name) with
  | .ok o => runWith o
  | .error .helpAsked => IO.println usage; return 0
  | .error .versionAsked => IO.println (describe .versionAsked); return 0
  | .error fault => IO.eprintln ("error: " ++ describe fault); return 2

import ChatRelay.Health.Target
import ChatRelay.Hub.Talk

/-! The health endpoint: one page with the status of the hub, for whoever watches over it. -/

namespace ChatRelay.Health

structure Response where
  code : Nat
  contentType : Option String
  allow : Option String
  body : String
  deriving DecidableEq, Repr

def isMethod (method : String) : Bool :=
  !method.isEmpty && method.toList.all fun c => c.isAlphanum || "!#$%&'*+-.^_`|~".toList.contains c

def boolText (b : Bool) : String := if b then "true" else "false"

def page (s : Status) : String :=
  "\x7b\"sessions\":" ++ toString s.sessions ++ ",\"identified\":" ++ toString s.identified ++
    ",\"rooms\":" ++ toString s.rooms ++ ",\"stopped\":" ++ boolText s.stopped ++ "\x7d"

def respond (s : Status) (method path : String) : Response :=
  if path ≠ "/health" then ⟨404, none, none, ""⟩
  else if method = "GET" ∨ method = "HEAD" then
    ⟨if s.stopped then 503 else 200, some "application/json", none,
      if method = "HEAD" then "" else page s⟩
  else ⟨405, none, some "GET,HEAD", ""⟩

def respond? (s : Status) (method target : String) : Option Response :=
  if isMethod method then (Target.path? target).map (respond s method) else none

def reason : Nat → String
  | 200 => "OK"
  | 400 => "Bad Request"
  | 404 => "Not Found"
  | 405 => "Method Not Allowed"
  | _ => "Service Unavailable"

def statusLine (code : Nat) : String := "HTTP/1.1 " ++ toString code ++ " " ++ reason code

def answer (s : Status) (request : String) : String × String :=
  let line := request.toList.takeWhile fun c => c != '\r' && c != '\n'
  let response := match (line.splitOn ' ').map String.ofList with
    | [method, target, "HTTP/1.1"] => respond? s method target
    | _ => none
  (response.map fun r => (statusLine r.code, r.body)).getD (statusLine 400, "")

end ChatRelay.Health

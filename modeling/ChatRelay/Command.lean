import ChatRelay.Text.Blank
import ChatRelay.Text.Count

/-! What a client can say. A unit of input is a slash command, a chat text or blank; the first
word of a command decides how the rest of it is read. -/

namespace ChatRelay

inductive Usage
  | pm
  | history
  deriving DecidableEq, Repr

def Usage.text : Usage → String
  | .pm => "/pm <닉네임> <메시지>"
  | .history => "/history [개수]"

inductive Command
  | nick (name : String)
  | join (room : String)
  | leave
  | users
  | help
  | quit
  | pm (target body : String)
  | history (limit : Nat)
  | chat (body : String)
  | usage (of : Usage)
  | unknown (word : String)
  | empty
  deriving DecidableEq, Repr

namespace Command

def defaultHistory : Nat := 20

def maxHistory : Nat := 100

def ofPm (args : List Char) : Command :=
  match Text.cutAtBlank args with
  | none => .usage .pm
  | some (target, rest) =>
    let body := Text.trim rest
    if body.isEmpty then .usage .pm else .pm (String.ofList target) (String.ofList body)

def ofHistory (args : List Char) : Command :=
  if args.isEmpty then .history defaultHistory
  else match Text.count? Text.countBound args with
    | none | some 0 => .usage .history
    | some n => .history (min n maxHistory)

def ofWord (word : String) (args : List Char) : Command :=
  match word with
  | "/nick" => .nick (String.ofList args)
  | "/join" => .join (String.ofList args)
  | "/leave" => .leave
  | "/users" | "/list" => .users
  | "/help" => .help
  | "/quit" => .quit
  | "/pm" => ofPm args
  | "/history" => ofHistory args
  | word => .unknown word

/-- A chat text keeps its blanks, and loses only the line endings after it. -/
def parse (input : String) : Command :=
  let line := Text.dropLineEndings input.toList
  let trimmed := Text.trim line
  match trimmed with
  | [] => .empty
  | '/' :: _ =>
    match Text.cutAtBlank trimmed with
    | none => ofWord (String.ofList trimmed) []
    | some (word, rest) => ofWord (String.ofList word) (Text.trim rest)
  | _ => .chat (String.ofList line)

end Command
end ChatRelay

import ChatRelay.Line

/-! One unit of input, whatever transport it came over: text to act on, traffic without meaning
for the chat, or the wish to close. A line is always text. -/

namespace ChatRelay

inductive Inbound
  | text (text : String)
  | skip
  | close
  deriving DecidableEq, Repr

inductive Frame
  | text (text : String)
  | binary (bytes : Text.Bytes)
  | ping (bytes : Text.Bytes)
  | pong (bytes : Text.Bytes)
  | close
  deriving DecidableEq, Repr

namespace Inbound

def ofMessageText (body : String) : Inbound :=
  .text (String.ofList (Text.dropLineEndings body.toList))

/-- Binary messages count as text when they are UTF-8, and as nothing otherwise. -/
def ofFrame : Frame → Inbound
  | .text body => ofMessageText body
  | .binary bytes => (Text.ofBytes? bytes).elim .skip ofMessageText
  | .ping _ | .pong _ => .skip
  | .close => .close

def ofLine (line : String) : Inbound := .text line

end Inbound
end ChatRelay

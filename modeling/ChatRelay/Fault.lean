import ChatRelay.Name

/-! Why something failed. A fault has a description for whoever runs the relay and a reply for the
client whose request caused it; faults that are no client's business share one reply. -/

namespace ChatRelay

inductive LineFault
  | tooLong
  | notUtf8
  deriving DecidableEq, Repr

def LineFault.describe : LineFault → String
  | .tooLong => "max line length exceeded"
  | .notUtf8 => "Unable to decode input as UTF8"

inductive IoFault
  | noSuchFile
  | isDirectory
  | nameTooLong
  | addressInUse
  | notUtf8
  | other (text : String)
  deriving DecidableEq, Repr

def IoFault.describe : IoFault → String
  | .noSuchFile => "No such file or directory (os error 2)"
  | .isDirectory => "Is a directory (os error 21)"
  | .nameTooLong => "File name too long (os error 36)"
  | .addressInUse => "Address already in use (os error 98)"
  | .notUtf8 => "stream did not contain valid UTF-8"
  | .other text => text

inductive Fault
  | connectionClosed
  | line (fault : LineFault)
  | io (fault : IoFault)
  | tls (reason : String)
  | config (reason : String)
  | hubGone
  | shuttingDown
  | unknownSession
  | invalidName (kind : Name.Kind) (name : String) (flaw : Name.Flaw)
  | nicknameTaken (nickname : String)
  | notInRoom
  | alreadyInRoom (room : String)
  | roomFull (room : String)
  | userNotFound (nickname : String)
  | historyDisabled
  | historyUnavailable
  deriving DecidableEq, Repr

inductive SendFault
  | queueFull
  | channelClosed
  deriving DecidableEq, Repr

def SendFault.describe : SendFault → String
  | .queueFull => "Outbound queue full"
  | .channelClosed => "Channel closed"

namespace Name

def Kind.describe : Kind → String
  | .nickname => "Nickname"
  | .room => "Room"

def Flaw.describe : Flaw → String
  | .empty => "Empty"
  | .blank => "Whitespace"
  | .tooLong limit => "TooLong(" ++ toString limit ++ ")"
  | .reserved => "Reserved"

def Kind.subject : Kind → String
  | .nickname => "닉네임"
  | .room => "방 이름"

def Flaw.reply (kind : Kind) (name : String) : Flaw → String
  | .empty => "Error: " ++ kind.subject ++ "은 비어있을 수 없습니다."
  | .blank => "Error: " ++ kind.subject ++ "에 공백 문자를 포함할 수 없습니다."
  | .tooLong limit => "Error: " ++ kind.subject ++ "은 " ++ toString limit ++ "자를 초과할 수 없습니다."
  | .reserved => "Error: " ++ kind.subject ++ " '" ++ name ++ "'은(는) 사용할 수 없습니다."

def check (kind : Kind) (limit : Nat) (name : String) : Except Fault Unit :=
  match flaw? kind limit name with
  | some flaw => .error (.invalidName kind name flaw)
  | none => .ok ()

end Name

namespace Fault

def describe : Fault → String
  | connectionClosed => "WebSocket error: Connection closed normally"
  | line fault => "Line codec error: " ++ fault.describe
  | io fault => "IO error: " ++ fault.describe
  | tls reason => "TLS error: " ++ reason
  | config reason => "Configuration error: " ++ reason
  | hubGone => "Channel send error"
  | shuttingDown => "Server is shutting down"
  | unknownSession => "Session not registered"
  | invalidName kind name flaw =>
    "Invalid " ++ kind.describe ++ " '" ++ name ++ "': " ++ flaw.describe
  | nicknameTaken nickname => "Nickname already taken: " ++ nickname
  | notInRoom => "Not in room"
  | alreadyInRoom room => "Already in room: " ++ room
  | roomFull room => "Room is full: " ++ room
  | userNotFound nickname => "User not found: " ++ nickname
  | historyDisabled => "Message history is disabled"
  | historyUnavailable => "Message history is unavailable"

def reply : Fault → String
  | invalidName kind name flaw => flaw.reply kind name
  | nicknameTaken nickname => "Error: 닉네임 '" ++ nickname ++ "'은(는) 이미 사용 중입니다."
  | notInRoom => "Error: 현재 어떤 방에도 없습니다."
  | alreadyInRoom room => "Error: 이미 '" ++ room ++ "' 방에 있습니다. 먼저 /leave 로 나가주세요."
  | roomFull room => "Error: '" ++ room ++ "' 방이 가득 찼습니다."
  | userNotFound nickname =>
    "Error: 사용자 '" ++ nickname ++ "'을(를) 찾을 수 없거나 오프라인 상태입니다."
  | shuttingDown => "Error: 서버가 종료 중입니다."
  | historyDisabled => "Error: 메시지 기록 기능이 비활성화되어 있습니다."
  | historyUnavailable => "Error: 메시지 기록을 불러올 수 없습니다."
  | connectionClosed | line _ | io _ | tls _ | config _ | hubGone | unknownSession =>
    "Error: 서버 내부 오류가 발생했습니다."

end Fault
end ChatRelay

import ChatRelay.Fault
import ChatRelay.Command

/-! Everything the relay says to a client, and the one line of text that says it. -/

namespace ChatRelay

inductive Message
  | banner
  | temporaryId (id : String)
  | nicknameHint
  | helpHint
  | joinHint
  | arrived (name : String)
  | departed (name : String)
  | nicknameChanged (nickname : String)
  | nicknameAnnounced (old new : String)
  | roomJoined (room : String)
  | roomRoster (members : List String)
  | alreadyHere (room : String)
  | memberJoined (name : String)
  | roomLeft (room : String)
  | memberLeft (name room : String)
  | roomChat (sender room body : String)
  | chat (sender body : String)
  | privateFrom (sender body : String)
  | privateSent (target body : String)
  | userListHeader (count : Nat)
  | userEntry (name : String) (isSelf : Bool)
  | helpBegin
  | helpLine (line : String)
  | helpEnd
  | historyHeader (scope : String) (count : Nat)
  | historyLine (line : String)
  | goodbye
  | usage (text : String)
  | unknownCommand (word : String)
  | error (text : String)
  deriving DecidableEq, Repr

namespace Message

def ofFault (fault : Fault) : Message :=
  .error fault.reply

def welcome (remoteId : String) : List Message :=
  [.banner, .temporaryId remoteId, .nicknameHint, .helpHint, .joinHint]

def helpLines : List String :=
  ["/nick <닉네임> - 닉네임 변경",
   "/join <방이름> - 방 입장/생성",
   "/leave - 현재 방 퇴장",
   "/users - 현재 접속자 목록 보기",
   "/pm <닉네임> <메시지> - 개인 메시지",
   "/history [개수] - 최근 대화 기록 보기",
   "/quit - 채팅 종료"]

def help : List Message :=
  .helpBegin :: helpLines.map .helpLine ++ [.helpEnd]

def scopeText : Option String → String
  | some room => "'" ++ room ++ "' 방"
  | none => "전체 채팅"

def text : Message → String
  | banner => "Welcome to the CherryRecorder Chat Server!"
  | temporaryId id => "Your temporary ID is: " ++ id
  | nicknameHint => "Please set your nickname using /nick <nickname>"
  | helpHint => "Enter /help for a list of commands."
  | joinHint => "Enter /join <roomname> to join or create a room."
  | arrived name => name ++ " 님이 입장했습니다."
  | departed name => "* 사용자 '" ++ name ++ "'님이 퇴장했습니다."
  | nicknameChanged nickname => "* 닉네임이 '" ++ nickname ++ "'(으)로 변경되었습니다."
  | nicknameAnnounced old new =>
    "* 사용자 '" ++ old ++ "'의 닉네임이 '" ++ new ++ "'(으)로 변경되었습니다."
  | roomJoined room => "* '" ++ room ++ "' 방에 입장했습니다."
  | roomRoster members =>
    "* 현재 멤버 (" ++ toString members.length ++ "): " ++ ", ".intercalate members
  | alreadyHere room => "* 이미 '" ++ room ++ "' 방에 있습니다."
  | memberJoined name => "* 사용자 '" ++ name ++ "'님이 방에 들어왔습니다."
  | roomLeft room => "* '" ++ room ++ "' 방에서 퇴장했습니다."
  | memberLeft name room => "* 사용자 '" ++ name ++ "'님이 '" ++ room ++ "' 방에서 나갔습니다."
  | roomChat sender room body => "[" ++ sender ++ " @ " ++ room ++ "]: " ++ body
  | chat sender body => "[" ++ sender ++ "]: " ++ body
  | privateFrom sender body => "[PM from " ++ sender ++ "]: " ++ body
  | privateSent target body => "* To " ++ target ++ ": " ++ body
  | userListHeader count => "* 현재 접속 중인 사용자 (" ++ toString count ++ "):"
  | userEntry name isSelf => "  - " ++ name ++ if isSelf then " (You)" else ""
  | helpBegin => "--- 도움말 ---"
  | helpLine line => line
  | helpEnd => "-------------"
  | historyHeader scope count => "* " ++ scope ++ " 최근 기록 (" ++ toString count ++ "):"
  | historyLine line => "  " ++ line
  | goodbye => "* 연결을 종료합니다..."
  | usage text => "Error: 사용법: " ++ text
  | unknownCommand word =>
    "Error: 알 수 없는 명령어 '" ++ word ++ "'. '/help'를 입력하여 도움말을 확인하세요."
  | error text => text

end Message
end ChatRelay

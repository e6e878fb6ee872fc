import ChatRelay.Address
import ChatRelay.Fault
import ChatRelay.Limits
import ChatRelay.Text.Count

/-! The command line. Every setting has a long name; most can also be set by an environment
variable or have a default. A setting that was named waits for its value until the next one is
named, so what is wrong with it shows only then. -/

namespace ChatRelay

inductive Setting
  | tcpAddr
  | wsAddr
  | wssAddr
  | tlsCert
  | tlsKey
  | historyDir
  | noHistory
  | workers
  | healthAddr
  | shutdownTimeout
  | maxQueue
  | maxMessageSize
  | maxRoomMembers
  deriving DecidableEq, Repr

inductive SettingKind
  | address
  | path
  | count
  | toggle
  deriving DecidableEq, Repr

namespace Setting

def all : List Setting :=
  [tcpAddr, wsAddr, wssAddr, tlsCert, tlsKey, historyDir, noHistory, workers, healthAddr,
    shutdownTimeout, maxQueue, maxMessageSize, maxRoomMembers]

def name : Setting → String
  | tcpAddr => "tcp-addr"
  | wsAddr => "ws-addr"
  | wssAddr => "wss-addr"
  | tlsCert => "tls-cert"
  | tlsKey => "tls-key"
  | historyDir => "history-dir"
  | noHistory => "no-history"
  | workers => "workers"
  | healthAddr => "health-addr"
  | shutdownTimeout => "shutdown-timeout-secs"
  | maxQueue => "max-queue"
  | maxMessageSize => "max-message-size"
  | maxRoomMembers => "max-room-members"

def ofName? (s : String) : Option Setting := all.find? (·.name = s)

def envName : Setting → Option String
  | tcpAddr => some "CHAT_TCP_ADDR"
  | wsAddr => some "CHAT_WS_ADDR"
  | wssAddr => some "CHAT_WSS_ADDR"
  | tlsCert => some "CHAT_TLS_CERT"
  | tlsKey => some "CHAT_TLS_KEY"
  | historyDir => some "HISTORY_DIR"
  | workers => some "CHAT_WORKERS"
  | healthAddr => some "CHAT_HEALTH_ADDR"
  | noHistory | shutdownTimeout | maxQueue | maxMessageSize | maxRoomMembers => none

def kind : Setting → SettingKind
  | tcpAddr | wsAddr | wssAddr | healthAddr => .address
  | tlsCert | tlsKey | historyDir => .path
  | workers | shutdownTimeout | maxQueue | maxMessageSize | maxRoomMembers => .count
  | noHistory => .toggle

end Setting

inductive UsageFault
  | valueInvalid
  | valueMissing
  | unknownArgument
  | unwantedValue
  | repeated
  | helpAsked
  | versionAsked
  deriving DecidableEq, Repr

structure Options where
  tcpAddr : Address
  wsAddr : Address
  wssAddr : Option Address
  tlsCert : Option String
  tlsKey : Option String
  historyDir : String
  noHistory : Bool
  workers : Option Nat
  healthAddr : Option Address
  shutdownTimeout : Nat
  maxQueue : Nat
  maxMessageSize : Nat
  maxRoomMembers : Nat
  deriving DecidableEq, Repr

namespace Options

def standard : Options where
  tcpAddr := ⟨.v4 [0, 0, 0, 0], 33334⟩
  wsAddr := ⟨.v4 [0, 0, 0, 0], 33335⟩
  wssAddr := none
  tlsCert := none
  tlsKey := none
  historyDir := "history"
  noHistory := false
  workers := none
  healthAddr := none
  shutdownTimeout := 5
  maxQueue := Limits.standard.outboundQueue
  maxMessageSize := Limits.standard.messageSize
  maxRoomMembers := Limits.standard.roomMembers

def readAddress (value : String) : Except UsageFault Address :=
  ((Address.parse? value).map .ok).getD (.error .valueInvalid)

def readPath (value : String) : Except UsageFault String :=
  if value.isEmpty then .error .valueMissing else .ok value

def readCount (value : String) : Except UsageFault Nat :=
  ((Text.count? Text.countBound value.toList).map .ok).getD (.error .valueInvalid)

def set (o : Options) (setting : Setting) (value : String) : Except UsageFault Options :=
  match setting with
  | .tcpAddr => (readAddress value).map fun a => { o with tcpAddr := a }
  | .wsAddr => (readAddress value).map fun a => { o with wsAddr := a }
  | .wssAddr => (readAddress value).map fun a => { o with wssAddr := some a }
  | .healthAddr => (readAddress value).map fun a => { o with healthAddr := some a }
  | .tlsCert => (readPath value).map fun p => { o with tlsCert := some p }
  | .tlsKey => (readPath value).map fun p => { o with tlsKey := some p }
  | .historyDir => (readPath value).map fun p => { o with historyDir := p }
  | .workers => (readCount value).map fun n => { o with workers := some n }
  | .shutdownTimeout => (readCount value).map fun n => { o with shutdownTimeout := n }
  | .maxQueue => (readCount value).map fun n => { o with maxQueue := n }
  | .maxMessageSize => (readCount value).map fun n => { o with maxMessageSize := n }
  | .maxRoomMembers => (readCount value).map fun n => { o with maxRoomMembers := n }
  | .noHistory => .ok { o with noHistory := true }

/-! ### Reading arguments -/

/-- What was read so far: the settings already given, and one that is named but not settled. -/
structure Reading where
  options : Options
  given : List Setting
  named : Option (Setting × Option String)

namespace Reading

def start : Reading := ⟨.standard, [], none⟩

def give (r : Reading) (setting : Setting) (value : String) : Except UsageFault Reading := do
  if r.given.contains setting then throw .repeated
  let options ← r.options.set setting value
  return { r with options, given := setting :: r.given }

def settle (r : Reading) : Except UsageFault Reading :=
  match r.named with
  | none => .ok r
  | some (_, none) => .error .valueMissing
  | some (setting, some value) => { r with named := none }.give setting value

def long (r : Reading) (name : String) (value : Option String) : Except UsageFault Reading :=
  match name, value with
  | "help", none => r.settle.bind fun _ => .error .helpAsked
  | "version", none => r.settle.bind fun _ => .error .versionAsked
  | "help", some _ | "version", some _ => .error .unwantedValue
  | name, value =>
    match Setting.ofName? name with
    | none => .error .unknownArgument
    | some setting =>
      match setting.kind, value with
      | .toggle, some _ => .error .unwantedValue
      | .toggle, none => r.settle.bind fun r => r.give setting ""
      | _, some value => r.settle.bind fun r => r.give setting value
      | _, none => r.settle.map fun r => { r with named := some (setting, none) }

def short (r : Reading) : List Char → Except UsageFault Reading
  | 'h' :: _ => r.settle.bind fun _ => .error .helpAsked
  | 'V' :: _ => r.settle.bind fun _ => .error .versionAsked
  | _ => .error .unknownArgument

def word (r : Reading) (value : String) : Except UsageFault Reading :=
  match r.named with
  | some (setting, none) => .ok { r with named := some (setting, some value) }
  | _ => .error .unknownArgument

def argument (r : Reading) (arg : String) : Except UsageFault Reading :=
  match arg.toList with
  | '-' :: '-' :: cs =>
    let name := cs.takeWhile (· != '=')
    let rest := cs.drop name.length
    r.long (String.ofList name) (if rest.isEmpty then none else some (String.ofList rest.tail))
  | '-' :: c :: cs => r.short (c :: cs)
  | _ => r.word arg

def arguments (r : Reading) : List String → Except UsageFault Reading
  | [] => r.settle
  | "--" :: [] => r.settle
  | "--" :: _ => .error .unknownArgument
  | arg :: args => (r.argument arg).bind fun r => r.arguments args

def environment (env : String → Option String) (r : Reading) : Except UsageFault Reading :=
  Setting.all.foldlM (fun r setting =>
    match setting.envName.bind env with
    | some value => if r.given.contains setting then .ok r else r.give setting value
    | none => .ok r) r

end Reading

def parse (args : List String) (env : String → Option String) : Except UsageFault Options := do
  let r ← Reading.start.arguments args
  let r ← r.environment env
  return r.options

/-! ### What the options amount to -/

def limits (o : Options) : Except Fault Limits :=
  let zero (name : String) : Except Fault Limits :=
    .error (.config ("--" ++ name ++ " must be greater than 0"))
  if o.maxQueue = 0 then zero Setting.maxQueue.name
  else if o.maxMessageSize = 0 then zero Setting.maxMessageSize.name
  else if o.maxRoomMembers = 0 then zero Setting.maxRoomMembers.name
  else if o.workers = some 0 then zero Setting.workers.name
  else .ok { Limits.standard with
    outboundQueue := o.maxQueue
    messageSize := o.maxMessageSize
    roomMembers := o.maxRoomMembers }

def tlsPaths (o : Options) : Except Fault (Option (String × String)) :=
  match o.wssAddr, o.tlsCert, o.tlsKey with
  | none, _, _ => .ok none
  | some _, some cert, some key => .ok (some (cert, key))
  | _, _, _ => .error (.config "--wss-addr requires both --tls-cert and --tls-key")

def historyRoot (o : Options) : Option String :=
  if o.noHistory then none else some o.historyDir

end Options
end ChatRelay

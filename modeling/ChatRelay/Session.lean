import ChatRelay.Message
import ChatRelay.Outbox

/-! One client's connection as the relay sees it: who it is, whether it still runs, and the queue
of what it is still to be told. -/

namespace ChatRelay

inductive Transport
  | line
  | webSocket
  | secureWebSocket
  deriving DecidableEq, Repr

def Transport.text : Transport → String
  | .line => "tcp"
  | .webSocket => "ws"
  | .secureWebSocket => "wss"

structure Profile where
  nickname : Option String
  room : Option String
  authenticated : Bool
  deriving DecidableEq, Repr

def Profile.fresh : Profile := ⟨none, none, false⟩

/-- `expired` means that no owner is left, so that nobody who only refers to the session can reach
it any more. -/
structure Session where
  remoteId : String
  transport : Transport
  profile : Profile
  outbox : Outbox
  stopped : Bool
  expired : Bool
  deriving DecidableEq, Repr

namespace Session

def create (remoteId : String) (transport : Transport) (capacity : Nat) : Session :=
  ⟨remoteId, transport, .fresh, .create capacity, false, false⟩

def displayName (s : Session) : String :=
  s.profile.nickname.getD s.remoteId

def live (s : Session) : Bool := !s.expired && !s.stopped

def setNickname (s : Session) (nickname : Option String) : Session :=
  { s with profile.nickname := nickname }

def setRoom (s : Session) (room : Option String) : Session :=
  { s with profile.room := room }

def setAuthenticated (s : Session) (authenticated : Bool) : Session :=
  { s with profile.authenticated := authenticated }

def deliver (s : Session) (text : String) : Except SendFault Session :=
  if s.stopped then .error .channelClosed
  else (s.outbox.push (.text text)).map fun outbox => { s with outbox }

def offer (s : Session) (text : String) : Session :=
  match s.deliver text with
  | .ok s => s
  | .error _ => s

def tell (s : Session) (message : Message) : Session :=
  s.offer message.text

def tellAll (s : Session) (messages : List Message) : Session :=
  messages.foldl tell s

def stop (s : Session) : Session := { s with stopped := true }

/-- Queues the close marker behind everything else, or stops when there is no room for it. -/
def closeAfterFlush (s : Session) : Session :=
  match s.outbox.push .close with
  | .ok outbox => { s with outbox }
  | .error _ => s.stop

def expire (s : Session) : Session := { s with expired := true }

theorem deliver_of_stopped {s : Session} (h : s.stopped) (text : String) :
    s.deliver text = .error .channelClosed := by
  simp [deliver, h]

theorem deliver_eq_ok_iff {s s' : Session} {text : String} :
    s.deliver text = .ok s' ↔
      s.stopped = false ∧ ∃ outbox, s.outbox.push (.text text) = .ok outbox ∧
        s' = { s with outbox } := by
  unfold deliver
  cases hs : s.stopped
  · cases hp : s.outbox.push (.text text) with
    | error _ => simp [Except.map]
    | ok outbox => simp [Except.map, eq_comm]
  · simp

theorem offer_eq (s : Session) (text : String) :
    s.offer text = { s with outbox := (s.offer text).outbox } := by
  unfold offer
  split
  next s' h =>
    obtain ⟨_, outbox, _, rfl⟩ := deliver_eq_ok_iff.1 h
    rfl
  next => rfl

@[simp] theorem profile_offer (s : Session) (text : String) :
    (s.offer text).profile = s.profile := by rw [offer_eq]

@[simp] theorem remoteId_offer (s : Session) (text : String) :
    (s.offer text).remoteId = s.remoteId := by rw [offer_eq]

@[simp] theorem transport_offer (s : Session) (text : String) :
    (s.offer text).transport = s.transport := by rw [offer_eq]

@[simp] theorem stopped_offer (s : Session) (text : String) :
    (s.offer text).stopped = s.stopped := by rw [offer_eq]

@[simp] theorem expired_offer (s : Session) (text : String) :
    (s.offer text).expired = s.expired := by rw [offer_eq]

@[simp] theorem live_offer (s : Session) (text : String) : (s.offer text).live = s.live := by
  simp [live]

@[simp] theorem displayName_offer (s : Session) (text : String) :
    (s.offer text).displayName = s.displayName := by
  simp [displayName]

theorem offer_of_stopped {s : Session} (h : s.stopped) (text : String) : s.offer text = s := by
  simp [offer, deliver_of_stopped h]

theorem tellAll_eq (s : Session) (messages : List Message) :
    s.tellAll messages = { s with outbox := (s.tellAll messages).outbox } := by
  induction messages generalizing s with
  | nil => rfl
  | cons m ms ih =>
    have h := ih (s.tell m)
    rw [show s.tellAll (m :: ms) = (s.tell m).tellAll ms from rfl, h]
    simp [tell]

@[simp] theorem stop_stop (s : Session) : s.stop.stop = s.stop := rfl

theorem stop_of_stopped {s : Session} (h : s.stopped) : s.stop = s := by
  rw [stop, ← h]

theorem closeAfterFlush_cases (s : Session) :
    (∃ outbox, s.outbox.push .close = .ok outbox ∧ s.closeAfterFlush = { s with outbox }) ∨
      (s.outbox.push .close).toBool = false ∧ s.closeAfterFlush = s.stop := by
  unfold closeAfterFlush
  cases h : s.outbox.push .close with
  | ok outbox => exact .inl ⟨outbox, rfl, rfl⟩
  | error _ => exact .inr ⟨rfl, rfl⟩

end Session
end ChatRelay

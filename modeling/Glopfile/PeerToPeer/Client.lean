import Glopfile.Api.Error
import Glopfile.Simulation

/-!
# The peer to peer client

`PeerToPeerClient::transfer` takes events off one channel: signaling messages that arrived over
the websocket, and what the RTC library reports of a connection. A new offer from the peer may
replace the connection, and the events of a replaced connection stay in the channel. A step
runs the code up to its next await; the future of a call may be dropped at any await, and the
channel keeps what it holds for the next call.

`decrypt` is what `SignalingWebSocket::decrypt` makes of a message. The RTC library, the
websocket and the handler answer through the inputs. Times are in nanoseconds from the origin of
the clock; what went by before the client was made is an `elapse` too. A connection holds a
sender of the channel, so the channel is open for as long as there is a client.
-/

namespace Glopfile.PeerToPeer

inductive SessionDescriptionType
  | answer
  | offer
  | pranswer
  | rollback
  deriving DecidableEq, Repr

def SessionDescriptionType.tryFrom : ℤ → Option SessionDescriptionType
  | 0 => some .answer
  | 1 => some .offer
  | 2 => some .pranswer
  | 3 => some .rollback
  | _ => none

/-- `sdpType` is the field as it is on the wire. -/
structure SessionDescription where
  sdp : String
  sdpType : ℤ
  deriving DecidableEq, Repr

/-- The accessor `sdp_type()`: an unknown value reads as the first variant. -/
def SessionDescription.type (d : SessionDescription) : SessionDescriptionType :=
  (SessionDescriptionType.tryFrom d.sdpType).getD .answer

structure IceCandidate where
  candidate : String
  mid : String
  deriving DecidableEq, Repr

inductive RtcSignaling
  | iceCandidate (candidate : IceCandidate)
  | sessionDescription (description : SessionDescription)
  deriving DecidableEq, Repr

structure RtcSignalingMessage where
  inner : Option RtcSignaling
  deriving DecidableEq, Repr

abbrev PeerConnectionId := ℕ

inductive PeerConnectionEvent
  | outgoingSignalingMessage (message : RtcSignaling)
  | dataChannelOpened
  | dataChannelError (error : String)
  | dataChannelMessage (data : List UInt8)
  deriving DecidableEq, Repr

inductive Event (E : Type*)
  | incomingSignalingMessage (message : E)
  | connection (id : PeerConnectionId) (event : PeerConnectionEvent)
  deriving DecidableEq, Repr

/-- `localDescriptionType` is the field of `NativePeerConnection`. -/
structure Connection where
  id : PeerConnectionId
  localDescriptionType : Option SessionDescriptionType
  deriving DecidableEq, Repr

/-- The seconds of an `Instant` are an `i64`; no instant is as late as this. -/
def instantLimit : ℕ := 2 ^ 63 * 10 ^ 9

structure Timeout where
  deadline : ℕ
  timeout : ℕ
  deriving DecidableEq, Repr

namespace Timeout

/-- `Instant::checked_add`, which `Timeout::deadline` expects not to overflow. -/
def deadlineAfter (now timeout : ℕ) : Option ℕ :=
  if now + timeout < instantLimit then some (now + timeout) else none

def new (now timeout : ℕ) : Option Timeout :=
  (deadlineAfter now timeout).map fun deadline => ⟨deadline, timeout⟩

/-- `Error::Timeout` once nothing remains. -/
def remaining (t : Timeout) (now : ℕ) : Except Api.Error ℕ :=
  if now < t.deadline then .ok (t.deadline - now) else .error .timeout

def reset (t : Timeout) (now : ℕ) : Option Timeout :=
  (deadlineAfter now t.timeout).map fun deadline => { t with deadline := deadline }

variable {now timeout : ℕ} {t t' : Timeout}

theorem new_eq_some : new now timeout = some t ↔
    now + timeout < instantLimit ∧ ⟨now + timeout, timeout⟩ = t := by
  simp [new, deadlineAfter]

theorem new_eq_none : new now timeout = none ↔ ¬now + timeout < instantLimit := by
  simp [new, deadlineAfter]

theorem reset_eq_some : t.reset now = some t' ↔
    now + t.timeout < instantLimit ∧ ⟨now + t.timeout, t.timeout⟩ = t' := by
  simp [reset, deadlineAfter]

theorem reset_eq_none : t.reset now = none ↔ ¬now + t.timeout < instantLimit := by
  simp [reset, deadlineAfter]

end Timeout

/-- The await at which a call on the client stands; `next` is the one of `rx.next()`. -/
inductive Call (E : Type*)
  | idle
  | creatingOffer
  | next
  | decrypting (message : E)
  | settingRemoteDescription (description : SessionDescription) (answers : Bool)
  | creatingAnswer
  | addingRemoteCandidate (candidate : IceCandidate)
  | sending (message : RtcSignaling)
  | openingDataChannel
  | handlingMessage (data : List UInt8)
  | panicked
  deriving DecidableEq, Repr

structure Client (E : Type*) where
  now : ℕ
  connection : Connection
  rx : List (Event E)
  inactivityTimeout : Option Timeout
  call : Call E
  dropped : Bool
  deriving DecidableEq, Repr

/-- `handle` is `SignalingMessageHandler::handle`, `report` is `PeerConnectionEventHandler::handle`;
both may come at any time, from other threads. `created` says how `Connection::new` went, if it
is called. A handler returns `none` to continue. -/
inductive Input (E O : Type*)
  | elapse (duration : ℕ)
  | handle (message : E)
  | report (id : PeerConnectionId) (event : PeerConnectionEvent)
  | createOffer
  | offerCreated (result : Except Api.Error Unit)
  | transfer (inactivityTimeout : Option ℕ)
  | next
  | decrypted (created : Except Api.Error Unit)
  | remoteDescriptionSet (result : Except Api.Error Unit)
  | answerCreated (result : Except Api.Error Unit)
  | remoteCandidateAdded (result : Except Api.Error Unit)
  | sent (result : Except Api.Error Unit)
  | handled (result : Except Api.Error (Option O))
  | abandoned
  | dropped

inductive Output (E O : Type*)
  | incoming (message : E)
  | taken (id : PeerConnectionId) (event : PeerConnectionEvent)
  | dropping (id : PeerConnectionId) (event : PeerConnectionEvent)
  | newConnection (id : PeerConnectionId)
  | offerCreated (id : PeerConnectionId)
  | setRemoteDescription (id : PeerConnectionId) (description : SessionDescription)
  | remoteDescriptionSet (id : PeerConnectionId) (description : SessionDescription)
  | createAnswer (id : PeerConnectionId)
  | answerCreated (id : PeerConnectionId)
  | addRemoteCandidate (id : PeerConnectionId) (candidate : IceCandidate)
  | send (message : RtcSignaling)
  | dataChannelOpened
  | dataChannelMessage (data : List UInt8)
  | returned (result : Except Api.Error O)
  | handlerError
  | panicked

namespace Client
variable {E O : Type*} (decrypt : E → Except Api.Error RtcSignalingMessage)

def new : Client E where
  now := 0
  connection := ⟨0, none⟩
  rx := []
  inactivityTimeout := none
  call := .idle
  dropped := false

def resolve (c : Client E) (result : Except Api.Error O) : Client E × List (Output E O) :=
  ({ c with call := .idle, inactivityTimeout := none }, [.returned result])

def panic (c : Client E) : Client E × List (Output E O) :=
  ({ c with call := .panicked }, [.panicked])

/-- The top of the loop of `transfer`. -/
def loop (c : Client E) : Client E × List (Output E O) :=
  match c.inactivityTimeout with
  | none => ({ c with call := .next }, [])
  | some inactivityTimeout =>
    match inactivityTimeout.remaining c.now with
    | .ok _ => ({ c with call := .next }, [])
    | .error error => c.resolve (.error error)

/-- `?` on what an await in the loop returned. -/
def loopIfOk (c : Client E) : Except Api.Error Unit → Client E × List (Output E O)
  | .ok () => c.loop
  | .error error => c.resolve (.error error)

def handleOutgoingSignalingMessage (c : Client E) (message : RtcSignaling) :
    Client E × List (Output E O) :=
  match message with
  | .sessionDescription localDescription =>
    match localDescription.type with
    | .offer | .answer => ({ c with call := .sending message }, [.send message])
    | .pranswer | .rollback => c.panic
  | .iceCandidate iceCandidate =>
    if iceCandidate.candidate = "" then c.loop
    else ({ c with call := .sending message }, [.send message])

def setRemoteDescription (c : Client E) (description : SessionDescription) (answers : Bool) :
    Client E × List (Output E O) :=
  ({ c with call := .settingRemoteDescription description answers },
    [.setRemoteDescription c.connection.id description])

/-- A new connection for an offer that comes after an answer; `PeerConnectionId` is a `u32`. -/
def resetConnection (c : Client E) (description : SessionDescription)
    (created : Except Api.Error Unit) : Client E × List (Output E O) :=
  if c.connection.id + 1 < 2 ^ 32 then
    match created with
    | .error error => c.resolve (.error error)
    | .ok () =>
      let set := { c with connection := ⟨c.connection.id + 1, none⟩ }.setRemoteDescription
        description true
      (set.1, .newConnection (c.connection.id + 1) :: set.2)
  else c.panic

def handleSessionDescription (c : Client E) (description : SessionDescription)
    (created : Except Api.Error Unit) : Client E × List (Output E O) :=
  match c.connection.localDescriptionType, description.type with
  | none, .offer => c.setRemoteDescription description true
  | some .answer, .offer => c.resetConnection description created
  | some .offer, .answer => c.setRemoteDescription description false
  | none, .answer | none, .pranswer | none, .rollback => c.loop
  | some .offer, .offer | some .offer, .pranswer | some .offer, .rollback => c.loop
  | some .answer, .answer | some .answer, .pranswer | some .answer, .rollback => c.loop
  -- We don't send pranswer or rollback.
  | some .pranswer, _ | some .rollback, _ => c.panic

/-- `handle_incoming_signaling_message`, after `decrypt`. -/
def handleIncomingSignalingMessage (c : Client E) (created : Except Api.Error Unit) :
    Except Api.Error RtcSignalingMessage → Client E × List (Output E O)
  | .error error => c.resolve (.error error)
  | .ok message =>
    match message.inner with
    | some (.sessionDescription description) => c.handleSessionDescription description created
    | some (.iceCandidate iceCandidate) =>
      if iceCandidate.candidate = "" then c.loop
      else ({ c with call := .addingRemoteCandidate iceCandidate },
        [.addRemoteCandidate c.connection.id iceCandidate])
    | none => c.loop

/-- The timeout is reset before the handler is called. -/
def handleDataChannelMessage (c : Client E) (data : List UInt8) : Client E × List (Output E O) :=
  match c.inactivityTimeout with
  | none => ({ c with call := .handlingMessage data }, [.dataChannelMessage data])
  | some inactivityTimeout =>
    match inactivityTimeout.reset c.now with
    | none => c.panic
    | some inactivityTimeout =>
      ({ c with inactivityTimeout := some inactivityTimeout, call := .handlingMessage data },
        [.dataChannelMessage data])

def handleConnectionEvent (c : Client E) :
    PeerConnectionEvent → Client E × List (Output E O)
  | .outgoingSignalingMessage message => c.handleOutgoingSignalingMessage message
  | .dataChannelOpened => ({ c with call := .openingDataChannel }, [.dataChannelOpened])
  | .dataChannelError error => c.resolve (.error (.rtcDataChannel error))
  | .dataChannelMessage data => c.handleDataChannelMessage data

def handleEvent (c : Client E) : Event E → Client E × List (Output E O)
  | .incomingSignalingMessage message =>
    ({ c with call := .decrypting message }, [.incoming message])
  | .connection id event =>
    if id ≠ c.connection.id then
      let continued := c.loop
      (continued.1, .dropping id event :: continued.2)
    else
      let handled := c.handleConnectionEvent event
      (handled.1, .taken id event :: handled.2)

/-- `rx.next()`, under its timeout if there is one: an event that is there wins. -/
def takeNext (c : Client E) : Option (Client E × List (Output E O)) :=
  match c.rx, c.inactivityTimeout with
  | event :: rx, _ => some ({ c with rx := rx }.handleEvent event)
  | [], none => none
  | [], some inactivityTimeout =>
    if inactivityTimeout.deadline ≤ c.now then some (c.resolve (.error .timeout)) else none

/-- The RTC library takes no description of an unknown type. -/
def remoteDescriptionSet (c : Client E) (description : SessionDescription) (answers : Bool) :
    Except Api.Error Unit → Option (Client E × List (Output E O))
  | .error error => some (c.resolve (.error error))
  | .ok () =>
    if (SessionDescriptionType.tryFrom description.sdpType).isNone then none
    else
      let rest :=
        if answers then ({ c with call := .creatingAnswer }, [.createAnswer c.connection.id])
        else c.loop
      some (rest.1, .remoteDescriptionSet c.connection.id description :: rest.2)

def answerCreated (c : Client E) : Except Api.Error Unit → Client E × List (Output E O)
  | .error error => c.resolve (.error error)
  | .ok () =>
    let continued := { c with connection.localDescriptionType := some .answer }.loop
    (continued.1, .answerCreated c.connection.id :: continued.2)

def handlerReturned (c : Client E) :
    Except Api.Error (Option O) → Client E × List (Output E O)
  | .error error => c.resolve (.error error)
  | .ok (some output) => c.resolve (.ok output)
  | .ok none => c.loop

def transfer (c : Client E) : Option ℕ → Client E × List (Output E O)
  | none => { c with inactivityTimeout := none }.loop
  | some timeout =>
    match Timeout.new c.now timeout with
    | none => { c with inactivityTimeout := none }.panic
    | some inactivityTimeout => { c with inactivityTimeout := some inactivityTimeout }.loop

def resume (c : Client E) : Call E → Input E O → Option (Client E × List (Output E O))
  | .creatingOffer, .offerCreated (.error _) => some ({ c with call := .idle }, [])
  | .creatingOffer, .offerCreated (.ok ()) =>
    some ({ c with call := .idle, connection.localDescriptionType := some .offer },
      [.offerCreated c.connection.id])
  | .next, .next => c.takeNext
  | .decrypting message, .decrypted created =>
    some (c.handleIncomingSignalingMessage created (decrypt message))
  | .settingRemoteDescription description answers, .remoteDescriptionSet result =>
    c.remoteDescriptionSet description answers result
  | .creatingAnswer, .answerCreated result => some (c.answerCreated result)
  | .addingRemoteCandidate _, .remoteCandidateAdded result => some (c.loopIfOk result)
  | .sending _, .sent result => some (c.loopIfOk result)
  | .openingDataChannel, .handled result => some (c.handlerReturned result)
  | .handlingMessage _, .handled result => some (c.handlerReturned result)
  | .idle, .createOffer => some ({ c with call := .creatingOffer }, [])
  | .idle, .transfer inactivityTimeout => some (c.transfer inactivityTimeout)
  | _, _ => none

def step (c : Client E) : Input E O → Option (Client E × List (Output E O))
  | .elapse duration => some ({ c with now := c.now + duration }, [])
  | .handle message =>
    if c.dropped then some (c, [.handlerError])
    else some ({ c with rx := c.rx ++ [.incomingSignalingMessage message] }, [])
  | .report id event =>
    if c.connection.id < id then none
    else if c.dropped then some (c, [])
    else some ({ c with rx := c.rx ++ [.connection id event] }, [])
  | .abandoned =>
    match c.call with
    | .idle | .panicked => none
    | _ => some ({ c with call := .idle, inactivityTimeout := none }, [])
  | .dropped => some ({ c with call := .idle, rx := [], dropped := true }, [])
  | input => if c.dropped then none else c.resume decrypt c.call input

end Client

def client {E O : Type*} (decrypt : E → Except Api.Error RtcSignalingMessage) :
    EventMachine (Client E) (Input E O) (Output E O) where
  init := .new
  step := Client.step decrypt

def plain (message : RtcSignaling) : Except Api.Error RtcSignalingMessage := .ok ⟨some message⟩

end Glopfile.PeerToPeer

import Glopfile.EventMachine

/-!
# The session task of the relay

`handle` is one turn of the task that serialises every operation on a session: it takes
a command, updates the state, and reports in order what was sent on the channels the
commands carry. Senders are modelled by names: a `Waiter` is a oneshot reply sender, a
`Sender` an unbounded channel to a download response or to a websocket task. A send on a
channel whose receiver is gone is still an effect here, since the task ignores the result.

Positions are `u64` and `addU64` is their addition as the release build performs it.
`State::id` only names the session in logs and in the registry, and is left out; leaving
the registry is the end of the run, `running = false`.
-/

namespace Glopfile.Relay

abbrev Position := ℕ
abbrev Token := ℕ
abbrev Waiter := ℕ
abbrev Sender := ℕ

def addU64 (a b : ℕ) : ℕ := (a + b) % 2 ^ 64

/-- A handle to a shared buffer; `buffer` names the allocation, so that two chunks with
the same content stay distinct. -/
structure Bytes where
  buffer : ℕ
  data : List UInt8
  deriving DecidableEq, Repr

inductive Chunk
  | more (data : Bytes)
  | final (data : Bytes)
  deriving DecidableEq, Repr

inductive DownloadEvent
  | more (data : Bytes)
  | final (data : Bytes)
  | connectionReplaced
  deriving DecidableEq, Repr

def maxHeldFrames : ℕ := 64

inductive Frame
  | text (body : String)
  | binary (data : Bytes)
  deriving DecidableEq, Repr

inductive Direction
  | upload
  | download
  deriving DecidableEq, Repr

inductive UploadError
  | notFound
  | connectionReplaced
  | position (position : Position)
  | finished
  | dataPending
  deriving DecidableEq, Repr

/-- `progress` is the `Send` of the binary frame into which `send_upload_progress` encodes
an `UploadDataAck` with this offset. -/
inductive WebsocketCommand
  | send (frame : Frame)
  | progress (offset : Position)
  | sessionError
  deriving DecidableEq, Repr

structure WebsocketPeer where
  token : Token
  commands : Sender
  deriving DecidableEq, Repr

inductive Peer
  | downloader (completed : Bool)
  | uploader
  | websocket (direction : Direction)
  deriving DecidableEq, Repr

structure Downloader where
  token : Token
  position : Position
  events : Sender
  deriving DecidableEq, Repr

structure Uploader where
  token : Token
  position : Position
  deriving DecidableEq, Repr

inductive DownloaderSlot
  | disconnected
  | connected (downloader : Downloader)
  | finished
  deriving DecidableEq, Repr

/-- A chunk waiting for a downloader, or an error waiting for the uploader to ask. -/
inductive Pending
  | none
  | data (chunk : Chunk) (waiter : Option Waiter) (position : Position) (size : ℕ)
  | error (error : UploadError)
  deriving DecidableEq, Repr

abbrev UploadResult := Except UploadError Unit

inductive Command
  | metadata (reply : Waiter)
  | startDownload (downloader : Downloader) (reply : Waiter)
  | finishDownload (reply : Waiter)
  | checkStartUpload (position : Position) (reply : Waiter)
  | startUpload (token : Token) (position : Position) (reply : Waiter)
  | uploadData (token : Token) (chunk : Chunk) (reply : Waiter)
  | flushUpload (token : Token) (reply : Waiter)
  | startWebsocket (direction : Direction) (peer : WebsocketPeer) (reply : Waiter)
  | websocketData (direction : Direction) (frame : Frame)
  | disconnected (token : Token) (peer : Peer)
  deriving DecidableEq, Repr

inductive Reply
  | done
  | metadata (metadata : String)
  | upload (result : UploadResult)

inductive Effect
  | event (events : Sender) (event : DownloadEvent)
  | websocket (commands : Sender) (command : WebsocketCommand)
  | reply (waiter : Waiter) (reply : Reply)

inductive ControlFlow
  | cont
  | brk
  deriving DecidableEq, Repr

structure State where
  metadata : String
  downloader : DownloaderSlot
  downloaderWs : Option WebsocketPeer
  downloaderWsHeld : List Frame
  uploader : Option Uploader
  uploaderWs : Option WebsocketPeer
  uploaderWsHeld : List Frame
  pending : Pending
  deriving DecidableEq, Repr

structure Outcome where
  state : State
  effects : List Effect
  flow : ControlFlow

def Chunk.data : Chunk → Bytes
  | .more data | .final data => data

def Chunk.len (chunk : Chunk) : ℕ := chunk.data.data.length

def Chunk.intoEvent : Chunk → DownloadEvent
  | .more data => .more data
  | .final data => .final data

def Direction.other : Direction → Direction
  | .upload => .download
  | .download => .upload

/-- `if matches!(pending, Pending::Error(_)) { pending = Pending::None }`. -/
def Pending.clearError : Pending → Pending
  | .error _ => .none
  | pending => pending

def Command.waiter : Command → Option Waiter
  | .metadata reply | .startDownload _ reply | .finishDownload reply
  | .checkStartUpload _ reply | .startUpload _ _ reply | .uploadData _ _ reply
  | .flushUpload _ reply | .startWebsocket _ _ reply => some reply
  | .websocketData _ _ | .disconnected _ _ => none

def Command.events : Command → Option Sender
  | .startDownload downloader _ => some downloader.events
  | _ => none

def Command.inbox : Command → Option Sender
  | .startWebsocket _ peer _ => some peer.commands
  | _ => none

def Pending.waiter : Pending → Option Waiter
  | .data _ waiter _ _ => waiter
  | _ => Option.none

def DownloaderSlot.events : DownloaderSlot → Option Sender
  | .connected downloader => some downloader.events
  | _ => none

def replyUpload (waiter : Waiter) (result : UploadResult) : Effect :=
  .reply waiter (.upload result)

def replyTo (waiter : Option Waiter) (result : UploadResult) : List Effect :=
  match waiter with
  | some waiter => [replyUpload waiter result]
  | none => []

def sendUploadProgress (uploaderWs : Option WebsocketPeer) (position : Position) :
    List Effect :=
  match uploaderWs with
  | some peer => [.websocket peer.commands (.progress position)]
  | none => []

namespace State

def uploaderToken (s : State) : Option Token := s.uploader.map Uploader.token

/-- `websocket_mut`, read. -/
def websocket (s : State) : Direction → Option WebsocketPeer
  | .upload => s.uploaderWs
  | .download => s.downloaderWs

/-- `websocket_mut`, written through. -/
def setWebsocket (s : State) (direction : Direction) (peer : Option WebsocketPeer) : State :=
  match direction with
  | .upload => { s with uploaderWs := peer }
  | .download => { s with downloaderWs := peer }

/-- `held_frames_mut`, read. -/
def heldFrames (s : State) : Direction → List Frame
  | .upload => s.uploaderWsHeld
  | .download => s.downloaderWsHeld

/-- `held_frames_mut`, written through. -/
def setHeldFrames (s : State) (direction : Direction) (held : List Frame) : State :=
  match direction with
  | .upload => { s with uploaderWsHeld := held }
  | .download => { s with downloaderWsHeld := held }

def terminateUploader (s : State) (error : UploadError) : State × List Effect :=
  match s.uploader with
  | none => (s, [])
  | some _ =>
    match s.pending with
    | .data chunk waiter position size =>
      ({ s with pending := .data chunk none position size, uploader := none },
        replyTo waiter (.error error))
    | _ => ({ s with pending := .error error }, [])

def replaceDownloader (s : State) : List Effect :=
  match s.downloader with
  | .connected replaced => [.event replaced.events .connectionReplaced]
  | _ => []

/-- The chunk held in `pending` meets a new downloader: it is sent when the downloader is
at its position and discarded otherwise, and the call waiting on it is answered. -/
def releasePending (s : State) (downloader : Downloader) : Downloader × List Effect :=
  match s.pending with
  | .data chunk waiter position size =>
    if downloader.position = position then
      let next := addU64 downloader.position size
      ({ downloader with position := next },
        .event downloader.events chunk.intoEvent ::
          (sendUploadProgress s.uploaderWs next ++ replyTo waiter (.ok ())))
    else (downloader, replyTo waiter (.error (.position downloader.position)))
  | _ => (downloader, [])

def startDownload (s : State) (downloader : Downloader) : State × List Effect :=
  let released := s.releasePending downloader
  let position := released.1.position
  let t := { s with downloader := .disconnected, pending := .none }
  -- An uploader sending from elsewhere in the file has to resume from here.
  let terminated :=
    if t.uploader.any (fun uploader => uploader.position ≠ position) then
      t.terminateUploader (.position position)
    else (t, [])
  ({ terminated.1 with downloader := .connected released.1 },
    s.replaceDownloader ++ released.2 ++ terminated.2)

def finishDownload (s : State) (reply : Waiter) : Outcome :=
  let terminated := { s with downloader := .finished }.terminateUploader .finished
  ⟨terminated.1, s.replaceDownloader ++ terminated.2 ++ [.reply reply .done],
    if terminated.1.uploader.isNone then .brk else .cont⟩

def checkStartPosition (s : State) (position : Position) : UploadResult :=
  match s.downloader with
  | .connected downloader =>
    if position ≠ downloader.position then .error (.position downloader.position)
    else checkPending
  | _ => checkPending
where
  checkPending : UploadResult :=
    match s.pending with
    | .data _ _ pending size =>
      let expected := addU64 pending size
      if position ≠ expected then .error (.position expected) else .ok ()
    | _ => .ok ()

def evictUploader (s : State) : State × List Effect :=
  match s.uploader with
  | some _ =>
    let terminated := s.terminateUploader .connectionReplaced
    ({ terminated.1 with uploader := none }, terminated.2)
  | none => (s, [])

def startUpload (s : State) (token : Token) (position : Position) (reply : Waiter) :
    State × List Effect :=
  let evicted := s.evictUploader
  let t := evicted.1
  match t.checkStartPosition position with
  | .error error => (t, evicted.2 ++ [replyUpload reply (.error error)])
  | .ok () =>
    ({ t with pending := t.pending.clearError, uploader := some ⟨token, position⟩ },
      evicted.2 ++ sendUploadProgress t.uploaderWs position ++ [replyUpload reply (.ok ())])

def uploadData (s : State) (token : Token) (chunk : Chunk) (reply : Waiter) :
    State × List Effect :=
  match s.uploader with
  | none => (s, [replyUpload reply (.error .connectionReplaced)])
  | some uploader =>
    if uploader.token ≠ token then (s, [replyUpload reply (.error .connectionReplaced)])
    else
      match s.pending with
      | .data _ _ _ _ => (s, [replyUpload reply (.error .dataPending)])
      | .error error => (s, [replyUpload reply (.error error)])
      | .none =>
        let size := chunk.len
        let position := uploader.position
        let next := addU64 position size
        let t := { s with uploader := some { uploader with position := next } }
        match s.downloader with
        | .connected downloader =>
          ({ t with downloader := .connected { downloader with position := next } },
            .event downloader.events chunk.intoEvent ::
              (sendUploadProgress s.uploaderWs next ++ [replyUpload reply (.ok ())]))
        -- Hold the chunk until a downloader shows up at this position.
        | _ => ({ t with pending := .data chunk (some reply) position size }, [])

def flushUpload (s : State) (token : Token) (reply : Waiter) : State × List Effect :=
  if s.uploaderToken ≠ some token then
    (s, [replyUpload reply (.error .connectionReplaced)])
  else
    match s.pending with
    | .error error => (s, [replyUpload reply (.error error)])
    | .data chunk _ position size =>
      ({ s with pending := .data chunk (some reply) position size }, [])
    | .none => (s, [replyUpload reply (.ok ())])

def startWebsocket (s : State) (direction : Direction) (peer : WebsocketPeer) :
    State × List Effect :=
  let released := (s.heldFrames direction).map
    fun frame => Effect.websocket peer.commands (.send frame)
  let t := s.setHeldFrames direction []
  let replaced : List Effect :=
    match t.websocket direction with
    | some replaced => [.websocket replaced.commands .sessionError]
    | none => []
  (t.setWebsocket direction (some peer), released ++ replaced)

def holdFrame (s : State) (target : Direction) (frame : Frame) : State :=
  if (s.heldFrames target).length = maxHeldFrames then s
  else s.setHeldFrames target (s.heldFrames target ++ [frame])

def relayFrame (s : State) (sender : Direction) (frame : Frame) : State × List Effect :=
  match s.websocket sender.other with
  | some peer => (s, [.websocket peer.commands (.send frame)])
  | none => (s.holdFrame sender.other frame, [])

def disconnected (s : State) (token : Token) : Peer → State × ControlFlow
  | .downloader completed =>
    match s.downloader with
    | .connected downloader =>
      if downloader.token ≠ token then (s, .cont)
      else if completed then ({ s with downloader := .finished }, .brk)
      else ({ s with downloader := .disconnected }, .cont)
    | _ => (s, .cont)
  | .uploader =>
    if s.uploaderToken ≠ some token then (s, .cont)
    else
      match s.downloader with
      | .finished => ({ s with uploader := none }, .brk)
      | _ =>
        -- The queued error was meant for the uploader that just left.
        ({ s with uploader := none, pending := s.pending.clearError }, .cont)
  | .websocket direction =>
    if (s.websocket direction).map WebsocketPeer.token = some token then
      (s.setWebsocket direction none, .cont)
    else (s, .cont)

def handle (s : State) : Command → Outcome
  | .metadata reply => ⟨s, [.reply reply (.metadata s.metadata)], .cont⟩
  | .startDownload downloader reply =>
    let r := s.startDownload downloader
    ⟨r.1, r.2 ++ [.reply reply .done], .cont⟩
  | .finishDownload reply => s.finishDownload reply
  | .checkStartUpload position reply =>
    ⟨s, [replyUpload reply (s.checkStartPosition position)], .cont⟩
  | .startUpload token position reply =>
    let r := s.startUpload token position reply
    ⟨r.1, r.2, .cont⟩
  | .uploadData token chunk reply =>
    let r := s.uploadData token chunk reply
    ⟨r.1, r.2, .cont⟩
  | .flushUpload token reply =>
    let r := s.flushUpload token reply
    ⟨r.1, r.2, .cont⟩
  | .startWebsocket direction peer reply =>
    let r := s.startWebsocket direction peer
    ⟨r.1, r.2 ++ [.reply reply .done], .cont⟩
  | .websocketData direction frame =>
    let r := s.relayFrame direction frame
    ⟨r.1, r.2, .cont⟩
  | .disconnected token peer =>
    let r := s.disconnected token peer
    ⟨r.1, [], r.2⟩

end State

/-- A session as its task sees it: once `running` is false the task has left the registry
and takes no further command. -/
structure Session where
  state : State
  running : Bool

def Session.spawn (metadata : String) : Session where
  state :=
    { metadata := metadata
      downloader := .disconnected
      downloaderWs := none
      downloaderWsHeld := []
      uploader := none
      uploaderWs := none
      uploaderWsHeld := []
      pending := .none }
  running := true

def Session.step (s : Session) (command : Command) : Option (Session × List Effect) :=
  if s.running then
    let o := s.state.handle command
    some (⟨o.state, o.flow = .cont⟩, o.effects)
  else none

def sessionTask (metadata : String) : EventMachine Session Command Effect where
  init := .spawn metadata
  step := Session.step

end Glopfile.Relay

import Glopfile.Relay.Operations
import Mathlib.Logic.Function.Basic

/-!
# A session and the request handlers around it

The session task takes its commands from a FIFO queue. Around it run the handlers of any
number of requests: `download_content` with the response body it returns, `upload`, and
`websocket::relay`. A handler is a process that stops at each await, and the future of an
HTTP handler may be dropped at any of them. Which handler goes on, and when, is up to the
event; a handler that cannot go on refuses it.

Names are drawn from one counter: tokens, reply channels and buffers. The event channel of
a download and the command channel of a websocket carry the token of their owner.
A command sent to a session that has ended is lost with its reply sender.
-/

namespace Glopfile.Relay

/-- The answer to an upload request, with the reasons of `UploadResponse::Error` and of
`ApiError::Invalid`. -/
inductive Response
  | ok
  | error (reason : String)
  | conflict (position : Position)
  | notFound
  | invalid (reason : String)
  deriving DecidableEq, Repr

def uploadError : UploadError → Response
  | .notFound => .notFound
  | .position position => .conflict position
  -- The content already reached the downloader, so the uploader is done.
  | .finished => .ok
  | .connectionReplaced => .error "connection_replaced"
  | .dataPending => .error "data_pending"

def readFailed : Response := .invalid "body read failed"

inductive DownloadTask
  | starting (reply : Waiter)
  | streaming (completed : Bool)
  | ended
  deriving DecidableEq, Repr

/-- Where an `upload` request stands. `reading` waits for the next item of the body, with
the chunk it has in hand, if any; `sending` waits for `upload_data`, with the chunk to
follow, if any. -/
inductive UploadTask
  | starting (reply : Waiter)
  | flushing (reply : Waiter)
  | reading (data : Option Bytes)
  | sending (next : Option Bytes) (reply : Waiter)
  | ended
  deriving DecidableEq, Repr

inductive WebsocketTask
  | starting (direction : Direction) (reply : Waiter)
  | relaying (direction : Direction)
  | ended
  deriving DecidableEq, Repr

inductive BodyItem
  | chunk (data : List UInt8)
  | eof
  | failed
  deriving DecidableEq, Repr

inductive SystemEvent
  | turn
  | metadata
  | finishDownload
  | checkStartUpload (position : Position)
  | download (position : Position)
  | downloadResume (token : Token)
  | downloadPoll (token : Token)
  | downloadDrop (token : Token)
  | upload (position : Position)
  | uploadResume (token : Token)
  | uploadBody (token : Token) (item : BodyItem)
  | uploadDrop (token : Token)
  | websocket (direction : Direction)
  | websocketResume (token : Token)
  | websocketInbox (token : Token) (sent : Bool)
  | websocketFrame (token : Token) (frame : Frame)
  | websocketEnd (token : Token)
  deriving DecidableEq, Repr

inductive Output
  | handled (c : Command) (effects : List Effect)
  | took (token : Token) (event : DownloadEvent)
  | responded (token : Token) (response : Response)

structure System where
  session : Session
  queue : List Command
  fresh : ℕ
  replies : Waiter → Option Reply
  downloads : Token → Option DownloadTask
  channels : Token → List DownloadEvent
  uploads : Token → Option UploadTask
  websockets : Token → Option WebsocketTask
  inboxes : Token → List WebsocketCommand

def DownloadTask.alive : DownloadTask → Bool
  | .ended => false
  | _ => true

def UploadTask.alive : UploadTask → Bool
  | .ended => false
  | _ => true

def WebsocketTask.alive : WebsocketTask → Bool
  | .ended => false
  | _ => true

namespace System

def spawn (metadata : String) : System where
  session := .spawn metadata
  queue := []
  fresh := 0
  replies := fun _ => none
  downloads := fun _ => none
  channels := fun _ => []
  uploads := fun _ => none
  websockets := fun _ => none
  inboxes := fun _ => []

def send (r : System) (c : Command) : System :=
  { r with queue := if r.session.running then r.queue ++ [c] else r.queue }

def setDownload (r : System) (token : Token) (task : DownloadTask) : System :=
  { r with downloads := Function.update r.downloads token (some task) }

def setChannel (r : System) (token : Token) (channel : List DownloadEvent) : System :=
  { r with channels := Function.update r.channels token channel }

def setUpload (r : System) (token : Token) (task : UploadTask) : System :=
  { r with uploads := Function.update r.uploads token (some task) }

def setWebsocket (r : System) (token : Token) (task : WebsocketTask) : System :=
  { r with websockets := Function.update r.websockets token (some task) }

def setInbox (r : System) (token : Token) (inbox : List WebsocketCommand) : System :=
  { r with inboxes := Function.update r.inboxes token inbox }

def draw (r : System) (n : ℕ) : System := { r with fresh := r.fresh + n }

def replyHeld (r : System) (waiter : Waiter) : Bool :=
  r.session.running &&
    (r.queue.any (fun c => c.waiter = some waiter) ||
      r.session.state.pending.waiter = some waiter)

/-- What awaiting a reply returns: nothing yet, `Some(None)` once its sender is dropped. -/
def response (r : System) (waiter : Waiter) : Option (Option Reply) :=
  match r.replies waiter with
  | some reply => some (some reply)
  | none => if r.replyHeld waiter then none else some none

def eventsHeld (r : System) (events : Sender) : Bool :=
  r.session.running &&
    (r.queue.any (fun c => c.events = some events) ||
      r.session.state.downloader.events = some events)

def inboxHeld (r : System) (commands : Sender) : Bool :=
  r.session.running &&
    (r.queue.any (fun c => c.inbox = some commands) ||
      [Direction.upload, .download].any fun direction =>
        (r.session.state.websocket direction).map WebsocketPeer.commands = some commands)

def deliver (r : System) : Effect → System
  | .event events event =>
    if (r.downloads events).any DownloadTask.alive then
      r.setChannel events (r.channels events ++ [event])
    else r
  | .websocket commands command =>
    if (r.websockets commands).any WebsocketTask.alive then
      r.setInbox commands (r.inboxes commands ++ [command])
    else r
  | .reply waiter reply => { r with replies := Function.update r.replies waiter (some reply) }

/-- The session task handles its next command; the queue goes when the session ends. -/
def turn (r : System) : Option (System × List Output) :=
  match r.queue with
  | [] => none
  | c :: rest =>
    match r.session.step c with
    | none => none
    | some (session, effects) =>
      let queue := if session.running then rest else []
      some (effects.foldl deliver { r with session := session, queue := queue },
        [.handled c effects])

def request (r : System) (c : Waiter → Command) : System × List Output :=
  ((r.draw 1).send (c r.fresh), [])

def download (r : System) (position : Position) : System × List Output :=
  let downloader : Downloader := ⟨r.fresh, position, r.fresh⟩
  (((r.draw 2).setDownload r.fresh (.starting (r.fresh + 1))).send
    (.startDownload downloader (r.fresh + 1)), [])

def downloadResume (r : System) (token : Token) : Option (System × List Output) :=
  match r.downloads token with
  | some (.starting reply) =>
    match r.response reply with
    | none => none
    | some none => some ((r.setDownload token .ended).setChannel token [], [])
    | some (some _) => some (r.setDownload token (.streaming false), [])
  | _ => none

/-- `Drop for Download`. -/
def dropDownload (r : System) (token : Token) (completed : Bool) : System :=
  ((r.setDownload token .ended).setChannel token []).send
    (.disconnected token (.downloader completed))

def downloadPoll (r : System) (token : Token) : Option (System × List Output) :=
  match r.downloads token with
  | some (.streaming true) => some (r.dropDownload token true, [])
  | some (.streaming false) =>
    match r.channels token with
    | .more data :: rest => some (r.setChannel token rest, [.took token (.more data)])
    | .final data :: rest =>
      some ((r.setChannel token rest).setDownload token (.streaming true),
        [.took token (.final data)])
    | .connectionReplaced :: _ =>
      some (r.dropDownload token false, [.took token .connectionReplaced])
    | [] => if r.eventsHeld token then none else some (r.dropDownload token false, [])
  | _ => none

def downloadDrop (r : System) (token : Token) : Option (System × List Output) :=
  match r.downloads token with
  -- The future is dropped before it has made a `Download`.
  | some (.starting _) => some ((r.setDownload token .ended).setChannel token [], [])
  | some (.streaming completed) => some (r.dropDownload token completed, [])
  | _ => none

def upload (r : System) (position : Position) : System × List Output :=
  (((r.draw 2).setUpload r.fresh (.starting (r.fresh + 1))).send
    (.startUpload r.fresh position (r.fresh + 1)), [])

/-- `Drop for Upload`. -/
def dropUpload (r : System) (token : Token) : System :=
  (r.setUpload token .ended).send (.disconnected token .uploader)

def respond (r : System) (token : Token) (response : Response) : System × List Output :=
  (r.dropUpload token, [.responded token response])

/-- `response.await.ok().unwrap_or(Err(UploadError::NotFound))`. -/
def uploadAnswer : Option Reply → UploadResult
  | some (.upload result) => result
  | _ => .error .notFound

def flushUpload (r : System) (token : Token) : System × List Output :=
  (((r.draw 1).setUpload token (.flushing r.fresh)).send (.flushUpload token r.fresh), [])

def sendChunk (r : System) (token : Token) (chunk : Chunk) (next : Option Bytes) :
    System × List Output :=
  (((r.draw 1).setUpload token (.sending next r.fresh)).send
    (.uploadData token chunk r.fresh), [])

def uploadResume (r : System) (token : Token) : Option (System × List Output) :=
  match r.uploads token with
  | some (.starting reply) => (r.response reply).map fun answer =>
    match uploadAnswer answer with
    | .ok () => r.flushUpload token
    | .error error => r.respond token (uploadError error)
  | some (.flushing reply) => (r.response reply).map fun answer =>
    match uploadAnswer answer with
    | .ok () => (r.setUpload token (.reading none), [])
    | .error error => r.respond token (uploadError error)
  | some (.sending next reply) => (r.response reply).map fun answer =>
    match uploadAnswer answer, next with
    | .ok (), none => r.respond token .ok
    | .ok (), some data => (r.setUpload token (.reading (some data)), [])
    | .error error, _ => r.respond token (uploadError error)
  | _ => none

def uploadBody (r : System) (token : Token) (item : BodyItem) : Option (System × List Output) :=
  match r.uploads token, item with
  | some (.reading _), .failed => some (r.respond token readFailed)
  | some (.reading none), .chunk data =>
    some ((r.draw 1).setUpload token (.reading (some ⟨r.fresh, data⟩)), [])
  -- `unwrap_or_default`, and the fused stream ends again.
  | some (.reading none), .eof => some ((r.draw 1).sendChunk token (.final ⟨r.fresh, []⟩) none)
  | some (.reading (some data)), .chunk next =>
    some ((r.draw 1).sendChunk token (.more data) (some ⟨r.fresh, next⟩))
  | some (.reading (some data)), .eof => some (r.sendChunk token (.final data) none)
  | _, _ => none

def uploadDrop (r : System) (token : Token) : Option (System × List Output) :=
  if (r.uploads token).any UploadTask.alive then some (r.dropUpload token, []) else none

def websocket (r : System) (direction : Direction) : System × List Output :=
  (((r.draw 2).setWebsocket r.fresh (.starting direction (r.fresh + 1))).send
    (.startWebsocket direction ⟨r.fresh, r.fresh⟩ (r.fresh + 1)), [])

def websocketResume (r : System) (token : Token) : Option (System × List Output) :=
  match r.websockets token with
  | some (.starting direction reply) =>
    match r.response reply with
    | none => none
    | some none => some ((r.setWebsocket token .ended).setInbox token [], [])
    | some (some _) => some (r.setWebsocket token (.relaying direction), [])
  | _ => none

/-- `Drop for Disconnect`. -/
def dropWebsocket (r : System) (token : Token) (direction : Direction) : System :=
  ((r.setWebsocket token .ended).setInbox token []).send
    (.disconnected token (.websocket direction))

/-- The relay loop takes a command; `sent` says whether the socket accepted its frame. -/
def websocketInbox (r : System) (token : Token) (sent : Bool) : Option (System × List Output) :=
  match r.websockets token with
  | some (.relaying direction) =>
    match r.inboxes token with
    | .sessionError :: _ => some (r.dropWebsocket token direction, [])
    | _ :: rest =>
      if sent then some (r.setInbox token rest, [])
      else some (r.dropWebsocket token direction, [])
    | [] => if r.inboxHeld token then none else some (r.dropWebsocket token direction, [])
  | _ => none

def websocketFrame (r : System) (token : Token) (frame : Frame) :
    Option (System × List Output) :=
  match r.websockets token with
  | some (.relaying direction) => some (r.send (.websocketData direction frame), [])
  | _ => none

def websocketEnd (r : System) (token : Token) : Option (System × List Output) :=
  match r.websockets token with
  | some (.relaying direction) => some (r.dropWebsocket token direction, [])
  | _ => none

def step (r : System) : SystemEvent → Option (System × List Output)
  | .turn => r.turn
  | .metadata => some (r.request .metadata)
  | .finishDownload => some (r.request .finishDownload)
  | .checkStartUpload position => some (r.request (.checkStartUpload position))
  | .download position => some (r.download position)
  | .downloadResume token => r.downloadResume token
  | .downloadPoll token => r.downloadPoll token
  | .downloadDrop token => r.downloadDrop token
  | .upload position => some (r.upload position)
  | .uploadResume token => r.uploadResume token
  | .uploadBody token item => r.uploadBody token item
  | .uploadDrop token => r.uploadDrop token
  | .websocket direction => some (r.websocket direction)
  | .websocketResume token => r.websocketResume token
  | .websocketInbox token sent => r.websocketInbox token sent
  | .websocketFrame token frame => r.websocketFrame token frame
  | .websocketEnd token => r.websocketEnd token

end System

def relaySystem (metadata : String) : EventMachine System SystemEvent Output where
  init := .spawn metadata
  step := System.step

end Glopfile.Relay

import Glopfile.EventMachine
import Glopfile.Client.DecryptedFile

/-!
# The downloader client

`download_async` is one future. It runs a p2p task (`connect_p2p` or `transfer_p2p`), a relay
task (`download_content`), or both in a `select!`. An event is what an await returns; it runs
the code up to the next await, so that events may come in any order the phase awaits them in.
The handlers of the p2p task are given how many messages the data channel still accepts before
a send fails, `none` when it accepts all, and what the first poll of a flush meets.

Outputs record what a step sent, requested and reported, and the bytes it stored in the file.
-/

namespace Glopfile.Client

def chunkSize : ℕ := 16 * 1024

def maxP2pInflightDataLen : ℕ := 10 * 1024 * 1024

inductive Transport
  | both
  | p2p
  | relay
  deriving DecidableEq, Repr

inductive Panic
  /-- `expect("requested_offset < received_offset")` -/
  | requestedOffset
  /-- `panic!("invalid state")` -/
  | invalidState
  deriving DecidableEq, Repr

inductive Error
  | connect
  | offer
  | channel
  | decode
  | send
  | io (error : IoError)
  | relay
  | finishDownload
  deriving DecidableEq, Repr

structure DataRequest where
  offset : ℕ
  len : ℕ
  deriving DecidableEq, Repr

inductive DownloaderMessage
  | hello
  | dataRequest (request : DataRequest)
  | transferFinished
  deriving DecidableEq, Repr

inductive UploaderMessage
  | hello
  | dataResponse (offset : ℕ) (data : List UInt8)
  | unknown
  deriving DecidableEq, Repr

inductive Output
  | sent (message : DownloaderMessage)
  | stored (data : List UInt8)
  | progress (current total : ℕ)
  | getContent (offset : ℕ)
  | finishDownload
  deriving DecidableEq, Repr

inductive ControlFlow
  | continues
  | breaks
  deriving DecidableEq, Repr

/-- How a handler call leaves its await: it returned, or it awaits a flush. -/
inductive Await
  | returned (flow : ControlFlow)
  | failed (error : Error)
  | flushing
  | panicked (panic : Panic)
  deriving DecidableEq, Repr

structure DownloadState where
  decryptedFile : DecryptedFile
  requestedOffset : ℕ
  totalLen : ℕ
  deriving DecidableEq, Repr

structure Handled where
  state : DownloadState
  sends : Option ℕ
  outputs : List Output
  result : Await
  deriving DecidableEq, Repr

namespace Handled

def after (h : Handled) (outputs : List Output) : Handled :=
  { h with outputs := outputs ++ h.outputs }

def andThen (h : Handled) (next : DownloadState → Option ℕ → Handled) : Handled :=
  match h.result with
  | .returned .continues => (next h.state h.sends).after h.outputs
  | _ => h

end Handled

/-- `send_downloader_message`; `none` is the error. -/
def trySend : Option ℕ → Option (Option ℕ)
  | none => some none
  | some 0 => none
  | some (sends + 1) => some (some sends)

namespace DownloadState

/-- Release builds do not check the subtraction for `unrequestedLen`; it never wraps
(`requestData_le`). -/
def nextDataRequest (s : DownloadState) (receivedOffset : ℕ) :
    Except Panic (Option DataRequest) :=
  if s.requestedOffset < receivedOffset then .error .requestedOffset
  else
    let inflightLen := s.requestedOffset - receivedOffset
    let unrequestedLen := s.totalLen - s.requestedOffset
    let requestLen := min (min (maxP2pInflightDataLen - inflightLen) unrequestedLen) chunkSize
    .ok (if requestLen ≠ 0 then some ⟨s.requestedOffset, requestLen⟩ else none)

/-- The request loop. Every request takes from the bytes not requested yet, so their
number plus one is enough fuel (`requestData_fuel`). -/
def requestData (receivedOffset : ℕ) : ℕ → DownloadState → Option ℕ → Handled
  | 0, s, sends => ⟨s, sends, [], .returned .continues⟩
  | fuel + 1, s, sends =>
    match s.nextDataRequest receivedOffset with
    | .error panic => ⟨s, sends, [], .panicked panic⟩
    | .ok none => ⟨s, sends, [], .returned .continues⟩
    | .ok (some request) =>
      match trySend sends with
      | none => ⟨s, sends, [], .failed .send⟩
      | some sends =>
        (requestData receivedOffset fuel
          { s with requestedOffset := s.requestedOffset + request.len } sends).after
          [.sent (.dataRequest request)]

def finish (decrypt : List UInt8 → Option (List UInt8)) (s : DownloadState) (sends : Option ℕ)
    (io : List IoResult) : Handled :=
  match s.decryptedFile.pollFlush decrypt io with
  | (file, .pending) => ⟨{ s with decryptedFile := file }, sends, [], .flushing⟩
  | (file, .failed error) => ⟨{ s with decryptedFile := file }, sends, [], .failed (.io error)⟩
  | (file, .panicked) => ⟨{ s with decryptedFile := file }, sends, [], .panicked .invalidState⟩
  | (file, .ready) =>
    match trySend sends with
    | none => ⟨{ s with decryptedFile := file }, sends, [], .failed .send⟩
    | some sends =>
      ⟨{ s with decryptedFile := file }, sends, [.sent .transferFinished], .returned .breaks⟩

def requestDataOrFinish (decrypt : List UInt8 → Option (List UInt8)) (s : DownloadState)
    (sends : Option ℕ) (io : List IoResult) : Handled :=
  match s.decryptedFile.offset with
  | none => ⟨s, sends, [], .panicked .invalidState⟩
  | some receivedOffset =>
    if receivedOffset < s.totalLen then
      requestData receivedOffset (s.totalLen - s.requestedOffset + 1) s sends
    else s.finish decrypt sends io

def handleUploaderMessage (decrypt : List UInt8 → Option (List UInt8)) (s : DownloadState)
    (sends : Option ℕ) (io : List IoResult) : UploaderMessage → Handled
  | .hello => ⟨s, sends, [], .returned .continues⟩
  | .dataResponse offset data =>
    match s.decryptedFile.offset with
    | none => ⟨s, sends, [], .panicked .invalidState⟩
    | some receivedOffset =>
      if receivedOffset = offset then
        match s.decryptedFile.writeAll data with
        | (_, none) => ⟨s, sends, [], .panicked .invalidState⟩
        | (_, some (.error error)) => ⟨s, sends, [], .failed (.io error)⟩
        | (file, some (.ok ())) =>
          (requestDataOrFinish decrypt { s with decryptedFile := file } sends io).after
            [.stored data, .progress (receivedOffset + data.length) s.totalLen]
      else s.requestDataOrFinish decrypt sends io
  | .unknown => ⟨s, sends, [], .returned .continues⟩

/-- `message` is `none` when its bytes do not decode. -/
def dataChannelMessage (decrypt : List UInt8 → Option (List UInt8)) (s : DownloadState)
    (message : Option UploaderMessage) (sends : Option ℕ) (io : List IoResult) : Handled :=
  match message with
  | none => ⟨s, sends, [], .failed .decode⟩
  | some message => s.handleUploaderMessage decrypt sends io message

/-- `PeerToPeerConnectHandler::data_channel_message`; the flow is that of its output. -/
def connectMessage (decrypt : List UInt8 → Option (List UInt8)) (s : DownloadState)
    (message : Option UploaderMessage) (sends : Option ℕ) (io : List IoResult) : Handled :=
  (s.dataChannelMessage decrypt message sends io).andThen fun s sends =>
    s.requestDataOrFinish decrypt sends io

end DownloadState

inductive PeerTask
  | offering
  | receiving
  | flushing
  deriving DecidableEq, Repr

/-- What `download_content` awaits: `idle` before an attempt, then the response, the body,
the flush and the close. An attempt has its `content_offset` and `content_downloaded`. -/
inductive RelayTask
  | idle
  | requesting (contentOffset : ℕ)
  | streaming (contentOffset contentDownloaded : ℕ)
  | flushing
  | closing
  deriving DecidableEq, Repr

/-- The await at which `download_p2p` stands. The transfers and `finishing` carry
`offset_before_p2p`, `none` for the first one; in `continuing` the relay task is the one
that ran beside a p2p attempt, in `relaying` it runs alone from its start. -/
inductive Phase
  | starting
  | connecting (peer : PeerTask)
  | transferring (peer : PeerTask) (offsetBefore : Option ℕ)
  | finishing (offsetBefore : Option ℕ)
  | fallback (peer : PeerTask) (relay : RelayTask)
  | continuing (relay : RelayTask)
  | relaying (relay : RelayTask)
  | resolved (result : Except Error Unit)
  | panicked (panic : Panic)

structure Download where
  transport : Transport
  contentSize : ℕ
  state : DownloadState
  phase : Phase

inductive Event
  | started (ok : Bool)
  | offered (ok : Bool)
  | peerOpened (sends : Option ℕ) (io : List IoResult)
  | peerMessage (message : Option UploaderMessage) (sends : Option ℕ) (io : List IoResult)
  /-- A timeout, an error of the channel or of the signaling. -/
  | peerFailed
  | peerFlush (sends : Option ℕ) (io : List IoResult)
  | finished (ok : Bool)
  | relayRequest
  | relayResponse
  | relayChunk (data : List UInt8)
  | relayEnd (io : List IoResult)
  | relayFlush (io : List IoResult)
  /-- The attempt fails with an error that is retried, or for good. -/
  | relayFailed (retried : Bool)
  deriving DecidableEq, Repr

namespace Phase

def peer : Phase → Option PeerTask
  | .connecting peer | .transferring peer _ | .fallback peer _ => some peer
  | _ => none

def setPeer (task : PeerTask) : Phase → Phase
  | .connecting _ => .connecting task
  | .transferring _ before => .transferring task before
  | .fallback _ relay => .fallback task relay
  | phase => phase

def relay : Phase → Option RelayTask
  | .fallback _ relay | .continuing relay | .relaying relay => some relay
  | _ => none

def setRelay (task : RelayTask) : Phase → Phase
  | .fallback peer _ => .fallback peer task
  | .continuing _ => .continuing task
  | .relaying _ => .relaying task
  | phase => phase

def connects : Phase → Bool
  | .connecting _ | .fallback _ _ => true
  | _ => false

end Phase

namespace Download

def spawn (transport : Transport) (fileSize : ℕ) : Download where
  transport := transport
  contentSize := fileSize
  state :=
    { decryptedFile := .new fileSize
      requestedOffset := 0
      totalLen := ciphertextLen fileSize }
  phase := if transport = .relay then .relaying .idle else .starting

def offset (d : Download) : Option ℕ := d.state.decryptedFile.offset

def setPhase (d : Download) (phase : Phase) : Download := { d with phase := phase }

def setFile (d : Download) (file : DecryptedFile) : Download :=
  { d with state := { d.state with decryptedFile := file } }

def fallBack (d : Download) (error : Error) : Download :=
  match d.transport with
  | .both => d.setPhase (.fallback .offering .idle)
  | .p2p | .relay => d.setPhase (.resolved (.error error))

def transferAgain (d : Download) (offsetBefore : ℕ) : Download :=
  match d.offset with
  | none => d.setPhase (.panicked .invalidState)
  | some offset =>
    if offset = offsetBefore then d.setPhase (.relaying .idle)
    else d.setPhase (.fallback .offering .idle)

def peerError (d : Download) (error : Error) : Download :=
  match d.phase with
  | .connecting _ | .transferring _ none | .finishing none => d.fallBack error
  | .transferring _ (some before) | .finishing (some before) => d.transferAgain before
  | .fallback _ relay => d.setPhase (.continuing relay)
  | _ => d

def peerReturned (d : Download) (flow : ControlFlow) : Download × List Output :=
  match d.phase, flow with
  | .connecting _, .continues => (d.setPhase (.transferring .receiving none), [])
  -- The relay task is dropped.
  | .fallback _ _, .continues =>
    match d.offset with
    | none => (d.setPhase (.panicked .invalidState), [])
    | some before => (d.setPhase (.transferring .receiving (some before)), [])
  | .connecting _, .breaks | .fallback _ _, .breaks => (d.setPhase (.resolved (.ok ())), [])
  | .transferring _ before, .continues => (d.setPhase (.transferring .receiving before), [])
  | .transferring _ before, .breaks => (d.setPhase (.finishing before), [.finishDownload])
  | _, _ => (d, [])

def peerHandled (d : Download) (h : Handled) : Download × List Output :=
  let d := { d with state := h.state }
  match h.result with
  | .returned flow =>
    let (d, outputs) := d.peerReturned flow
    (d, h.outputs ++ outputs)
  | .failed error => (d.peerError error, h.outputs)
  | .flushing => (d.setPhase (d.phase.setPeer .flushing), h.outputs)
  | .panicked panic => (d.setPhase (.panicked panic), h.outputs)

def peerOpened (decrypt : List UInt8 → Option (List UInt8)) (d : Download) (sends : Option ℕ)
    (io : List IoResult) : Download × List Output :=
  if d.phase.connects then
    match trySend sends with
    | none => (d.peerError .send, [])
    | some _ => (d, [.sent .hello])
  else d.peerHandled (d.state.requestDataOrFinish decrypt sends io)

def peerMessage (decrypt : List UInt8 → Option (List UInt8)) (d : Download)
    (message : Option UploaderMessage) (sends : Option ℕ) (io : List IoResult) :
    Download × List Output :=
  if d.phase.connects then d.peerHandled (d.state.connectMessage decrypt message sends io)
  else d.peerHandled (d.state.dataChannelMessage decrypt message sends io)

def relayRequest (d : Download) : Download × List Output :=
  match d.offset with
  | none => (d.setPhase (.panicked .invalidState), [])
  | some contentOffset =>
    (d.setPhase (d.phase.setRelay (.requesting contentOffset)), [.getContent contentOffset])

def relayChunk (d : Download) (contentOffset contentDownloaded : ℕ) (data : List UInt8) :
    Download × List Output :=
  let downloaded := contentDownloaded + data.length
  let progress := Output.progress (contentOffset + downloaded) d.contentSize
  match d.state.decryptedFile.writeAll data with
  | (_, none) => (d.setPhase (.panicked .invalidState), [progress])
  | (_, some (.error error)) => (d.setPhase (.resolved (.error (.io error))), [progress])
  | (file, some (.ok ())) =>
    ((d.setFile file).setPhase (d.phase.setRelay (.streaming contentOffset downloaded)),
      [progress, .stored data])

def relayClose (decrypt : List UInt8 → Option (List UInt8)) (d : Download)
    (io : List IoResult) : Download :=
  match d.state.decryptedFile.pollClose decrypt io with
  | (file, .pending) => (d.setFile file).setPhase (d.phase.setRelay .closing)
  | (file, .ready) => (d.setFile file).setPhase (.resolved (.ok ()))
  | (file, .failed error) => (d.setFile file).setPhase (.resolved (.error (.io error)))
  | (file, .panicked) => (d.setFile file).setPhase (.panicked .invalidState)

/-- The close follows a flush that is ready in the same poll, with nothing more to meet. -/
def relayFlush (decrypt : List UInt8 → Option (List UInt8)) (d : Download)
    (io : List IoResult) : Download :=
  match d.state.decryptedFile.pollFlush decrypt io with
  | (file, .pending) => (d.setFile file).setPhase (d.phase.setRelay .flushing)
  | (file, .ready) => (d.setFile file).relayClose decrypt []
  | (file, .failed error) => (d.setFile file).setPhase (.resolved (.error (.io error)))
  | (file, .panicked) => (d.setFile file).setPhase (.panicked .invalidState)

def step (decrypt : List UInt8 → Option (List UInt8)) (d : Download) :
    Event → Option (Download × List Output)
  | .started ok =>
    match d.phase with
    | .starting =>
      some (d.setPhase (if ok then .connecting .offering else .resolved (.error .connect)), [])
    | _ => none
  | .offered ok =>
    if d.phase.peer = some .offering then
      some (if ok then d.setPhase (d.phase.setPeer .receiving) else d.peerError .offer, [])
    else none
  | .peerOpened sends io =>
    if d.phase.peer = some .receiving then some (d.peerOpened decrypt sends io) else none
  | .peerMessage message sends io =>
    if d.phase.peer = some .receiving then some (d.peerMessage decrypt message sends io)
    else none
  | .peerFailed =>
    if d.phase.peer = some .receiving then some (d.peerError .channel, []) else none
  | .peerFlush sends io =>
    if d.phase.peer = some .flushing then
      some (d.peerHandled (d.state.finish decrypt sends io))
    else none
  | .finished ok =>
    match d.phase with
    | .finishing _ =>
      some (if ok then d.setPhase (.resolved (.ok ())) else d.peerError .finishDownload, [])
    | _ => none
  | .relayRequest =>
    if d.phase.relay = some .idle then some d.relayRequest else none
  | .relayResponse =>
    match d.phase.relay with
    | some (.requesting contentOffset) =>
      some (d.setPhase (d.phase.setRelay (.streaming contentOffset 0)), [])
    | _ => none
  | .relayChunk data =>
    match d.phase.relay with
    | some (.streaming contentOffset contentDownloaded) =>
      some (d.relayChunk contentOffset contentDownloaded data)
    | _ => none
  | .relayEnd io =>
    match d.phase.relay with
    | some (.streaming _ _) => some (d.relayFlush decrypt io, [])
    | _ => none
  | .relayFlush io =>
    match d.phase.relay with
    | some .flushing => some (d.relayFlush decrypt io, [])
    | some .closing => some (d.relayClose decrypt io, [])
    | _ => none
  | .relayFailed retried =>
    match d.phase.relay, retried with
    -- The content url is bad.
    | some .idle, false => some (d.setPhase (.resolved (.error .relay)), [])
    | some (.requesting _), true | some (.streaming _ _), true =>
      some (d.setPhase (d.phase.setRelay .idle), [])
    | some (.requesting _), false | some (.streaming _ _), false =>
      some (d.setPhase (.resolved (.error .relay)), [])
    | _, _ => none

end Download

def downloadAsync (decrypt : List UInt8 → Option (List UInt8)) (transport : Transport)
    (fileSize : ℕ) : EventMachine Download Event Output where
  init := .spawn transport fileSize
  step := Download.step decrypt

end Glopfile.Client

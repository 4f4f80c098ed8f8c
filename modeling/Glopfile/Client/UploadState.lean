import Glopfile.Client.Outstanding

/-!
# The uploader of a p2p transfer

The first p2p attempt of a download, from `create_offer` to the return of `transfer`, against
the `UploadState` that answers it. The data channel delivers every message once and in order,
and accepts all that are sent.
-/

namespace Glopfile.Client

structure EncryptedFile where
  encryptedBytes : List UInt8

namespace EncryptedFile

/-- `none` is the panic of `slice`. -/
def readAtExact (f : EncryptedFile) (offset len : ℕ) : Option (List UInt8) :=
  let stop := min (offset + len) (2 ^ 64 - 1)
  if offset ≤ stop ∧ stop ≤ f.encryptedBytes.length then
    some ((f.encryptedBytes.take stop).drop offset)
  else none

def len (f : EncryptedFile) : ℕ := f.encryptedBytes.length

end EncryptedFile

inductive UploaderTask
  | running
  | finished
  | panicked
  deriving DecidableEq, Repr

inductive UploaderOutput
  | sent (message : UploaderMessage)
  | progress (current total : ℕ)
  deriving DecidableEq, Repr

structure UploadState where
  encryptedFile : EncryptedFile

/-- `new_offset` is added in `u64`, as in release builds. -/
def UploadState.dataChannelMessage (s : UploadState) :
    DownloaderMessage → UploaderTask × List UploaderOutput
  | .hello => (.running, [.sent .hello])
  | .dataRequest ⟨offset, len⟩ =>
    match s.encryptedFile.readAtExact offset len with
    | none => (.panicked, [])
    | some data =>
      (.running, [.sent (.dataResponse offset data),
        .progress ((offset + len) % 2 ^ 64) s.encryptedFile.len])
  | .transferFinished => (.finished, [.progress s.encryptedFile.len s.encryptedFile.len])

structure Transfer where
  download : Download
  uploader : UploaderTask
  toUploader : List DownloaderMessage
  toDownloader : List UploaderMessage

inductive TransferEvent
  | started (ok : Bool)
  | offered (ok : Bool)
  | opened (io : List IoResult)
  | response (io : List IoResult)
  | flush (io : List IoResult)
  /-- A timeout, or an error of the signaling. -/
  | failed
  | request

inductive TransferOutput
  | downloader (o : Output)
  | uploader (o : UploaderOutput)

def Output.message : Output → Option DownloaderMessage
  | .sent message => some message
  | _ => none

def UploaderOutput.message : UploaderOutput → Option UploaderMessage
  | .sent message => some message
  | .progress _ _ => none

def TransferOutput.output : TransferOutput → Option Output
  | .downloader o => some o
  | .uploader _ => none

def Phase.attempts : Phase → Bool
  | .starting | .connecting _ | .transferring _ none => true
  | _ => false

namespace Transfer

def event (t : Transfer) : TransferEvent → Option (Event × List UploaderMessage)
  | .started ok => some (.started ok, t.toDownloader)
  | .offered ok => some (.offered ok, t.toDownloader)
  | .opened io => some (.peerOpened none io, t.toDownloader)
  | .response io =>
    match t.toDownloader with
    | [] => none
    | message :: rest => some (.peerMessage (some message) none io, rest)
  | .flush io => some (.peerFlush none io, t.toDownloader)
  | .failed => some (.peerFailed, t.toDownloader)
  | .request => none

def handleDownload (decrypt : List UInt8 → Option (List UInt8)) (t : Transfer) (e : Event)
    (rest : List UploaderMessage) : Option (Transfer × List TransferOutput) :=
  if t.download.phase.attempts then
    (t.download.step decrypt e).map fun r =>
      ({ t with
          download := r.1
          toUploader := t.toUploader ++ r.2.filterMap Output.message
          toDownloader := rest }, r.2.map .downloader)
  else none

def handleUpload (s : UploadState) (t : Transfer) : Option (Transfer × List TransferOutput) :=
  match t.uploader, t.toUploader with
  | .running, message :: rest =>
    let (task, outputs) := s.dataChannelMessage message
    some ({ t with
        uploader := task
        toUploader := rest
        toDownloader := t.toDownloader ++ outputs.filterMap UploaderOutput.message },
      outputs.map .uploader)
  | _, _ => none

end Transfer

def transfer (decrypt : List UInt8 → Option (List UInt8)) (transport : Transport)
    (fileSize : ℕ) (s : UploadState) : EventMachine Transfer TransferEvent TransferOutput where
  init := ⟨.spawn transport fileSize, .running, [], []⟩
  step t
    | .request => t.handleUpload s
    | e => (t.event e).bind fun p => t.handleDownload decrypt p.1 p.2

end Glopfile.Client

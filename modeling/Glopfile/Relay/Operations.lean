import Glopfile.Relay.Session

/-!
# What each session operation does

Every operation is described once: by the resulting downloader slot, uploader and pending
slot, or by the complete list of its outcomes. Invariants are derived from these
descriptions and do not unfold the operations again.
-/

namespace Glopfile.Relay

variable {s t : State} {downloader : Downloader} {uploader : Uploader} {token : Token}
  {position : Position} {chunk : Chunk} {reply : Waiter} {error : UploadError}

@[simp] theorem Pending.clearError_none : Pending.none.clearError = .none := rfl
@[simp] theorem Pending.clearError_error : (Pending.error error).clearError = .none := rfl
@[simp] theorem Pending.clearError_data {waiter : Option Waiter} {size : ℕ} :
    (Pending.data chunk waiter position size).clearError =
      .data chunk waiter position size := rfl

theorem Pending.clearError_ne_error {pending : Pending} : pending.clearError ≠ .error error := by
  cases pending <;> nofun

theorem Pending.eq_data_of_clearError {pending : Pending} {waiter : Option Waiter} {size : ℕ}
    (h : pending.clearError = .data chunk waiter position size) :
    pending = .data chunk waiter position size := by
  cases pending with
  | none => exact h
  | error e => cases h
  | data c w p n => exact h

namespace State

@[simp] theorem releasePending_token :
    (s.releasePending downloader).1.token = downloader.token := by
  unfold releasePending
  split
  · split_ifs <;> rfl
  · rfl

@[simp] theorem releasePending_events :
    (s.releasePending downloader).1.events = downloader.events := by
  unfold releasePending
  split
  · split_ifs <;> rfl
  · rfl

theorem releasePending_cases (s : State) (downloader : Downloader) :
    (∃ chunk waiter size, s.pending = .data chunk waiter downloader.position size ∧
        s.releasePending downloader =
          ({ downloader with position := addU64 downloader.position size },
            .event downloader.events chunk.intoEvent ::
              (sendUploadProgress s.uploaderWs (addU64 downloader.position size) ++
                replyTo waiter (.ok ())))) ∨
      s.releasePending downloader =
        (downloader, replyTo s.pending.waiter (.error (.position downloader.position))) := by
  unfold releasePending
  cases hp : s.pending with
  | none => exact .inr rfl
  | error e => exact .inr rfl
  | data chunk waiter position size =>
    by_cases h : downloader.position = position
    · subst h
      exact .inl ⟨chunk, waiter, size, rfl, by simp⟩
    · exact .inr (by simp [h, Pending.waiter])

@[simp] theorem terminateUploader_downloader :
    (s.terminateUploader error).1.downloader = s.downloader := by
  unfold terminateUploader
  split
  · rfl
  · split <;> rfl

/-- The slots of the content transfer, which the signaling operations never touch. -/
def SameTransfer (s t : State) : Prop :=
  t.downloader = s.downloader ∧ t.uploader = s.uploader ∧ t.pending = s.pending

theorem setWebsocket_sameTransfer (s : State) (direction : Direction)
    (peer : Option WebsocketPeer) :
    s.SameTransfer (s.setWebsocket direction peer) := by
  cases direction <;> exact ⟨rfl, rfl, rfl⟩

theorem setHeldFrames_sameTransfer (s : State) (direction : Direction) (held : List Frame) :
    s.SameTransfer (s.setHeldFrames direction held) := by
  cases direction <;> exact ⟨rfl, rfl, rfl⟩

theorem startWebsocket_sameTransfer (s : State) (direction : Direction)
    (peer : WebsocketPeer) :
    s.SameTransfer (s.startWebsocket direction peer).1 := by
  cases direction <;> exact ⟨rfl, rfl, rfl⟩

theorem relayFrame_sameTransfer (s : State) (direction : Direction) (frame : Frame) :
    s.SameTransfer (s.relayFrame direction frame).1 := by
  unfold relayFrame holdFrame
  split
  · exact ⟨rfl, rfl, rfl⟩
  · split_ifs
    · exact ⟨rfl, rfl, rfl⟩
    · exact setHeldFrames_sameTransfer s _ _

@[simp] theorem startDownload_downloader :
    (s.startDownload downloader).1.downloader = .connected (s.releasePending downloader).1 := rfl

@[simp] theorem startDownload_uploader :
    (s.startDownload downloader).1.uploader = s.uploader := by
  cases hu : s.uploader with
  | none => simp [startDownload, hu]
  | some uploader =>
    simp only [startDownload, hu, Option.any_some]
    split_ifs <;> simp [terminateUploader]

theorem startDownload_pending (s : State) (downloader : Downloader) :
    (s.startDownload downloader).1.pending = .none ∧
        (∀ uploader, s.uploader = some uploader →
          uploader.position = (s.releasePending downloader).1.position) ∨
      (s.startDownload downloader).1.pending =
        .error (.position (s.releasePending downloader).1.position) := by
  cases hu : s.uploader with
  | none => simp [startDownload, hu]
  | some uploader =>
    by_cases hp : uploader.position = (s.releasePending downloader).1.position
    · left
      simp [startDownload, hu, hp]
    · right
      simp [startDownload, hu, hp, terminateUploader]

theorem startDownload_effects :
    (s.startDownload downloader).2 = s.replaceDownloader ++ (s.releasePending downloader).2 := by
  cases hu : s.uploader with
  | none => simp [startDownload, hu]
  | some uploader =>
    simp only [startDownload, hu, Option.any_some]
    split_ifs <;> simp [terminateUploader]

@[simp] theorem evictUploader_uploader : s.evictUploader.1.uploader = none := by
  unfold evictUploader
  split
  · rfl
  · assumption

@[simp] theorem evictUploader_downloader : s.evictUploader.1.downloader = s.downloader := by
  unfold evictUploader
  split
  · simp
  · rfl

theorem evictUploader_data {waiter : Option Waiter} {size : ℕ} :
    s.evictUploader.1.pending = .data chunk waiter position size →
      ∃ waiter', s.pending = .data chunk waiter' position size := by
  unfold evictUploader terminateUploader
  cases hu : s.uploader with
  | none => intro h; exact ⟨waiter, h⟩
  | some uploader =>
    cases hp : s.pending with
    | none => simp
    | data c w p n =>
      simp only [Pending.data.injEq]
      rintro ⟨rfl, _, rfl, rfl⟩
      exact ⟨w, rfl, rfl, rfl, rfl⟩
    | error e => simp

theorem evictUploader_effects :
    ∃ waiter, s.evictUploader.2 = replyTo waiter (.error .connectionReplaced) := by
  unfold evictUploader terminateUploader
  cases hu : s.uploader with
  | none => exact ⟨none, rfl⟩
  | some uploader =>
    cases hp : s.pending with
    | none => exact ⟨none, rfl⟩
    | data c w p n => exact ⟨w, rfl⟩
    | error e => exact ⟨none, rfl⟩

theorem checkStartPosition_eq_ok :
    s.checkStartPosition position = .ok () ↔
      (∀ downloader, s.downloader = .connected downloader → position = downloader.position) ∧
      ∀ chunk waiter pending size, s.pending = .data chunk waiter pending size →
        position = addU64 pending size := by
  have hpending : checkStartPosition.checkPending s position = .ok () ↔
      ∀ chunk waiter pending size, s.pending = .data chunk waiter pending size →
        position = addU64 pending size := by
    unfold checkStartPosition.checkPending
    cases hp : s.pending with
    | data c w p n =>
      by_cases h : position = addU64 p n
      · simp only [h, ne_eq, not_true_eq_false, ↓reduceIte, Pending.data.injEq, true_iff]
        rintro _ _ _ _ ⟨-, -, rfl, rfl⟩
        rfl
      · simp only [ne_eq, h, not_false_eq_true, ↓reduceIte, reduceCtorEq, false_iff, not_forall]
        exact ⟨c, w, p, n, rfl, h⟩
    | none => simp
    | error e => simp
  unfold checkStartPosition
  cases hd : s.downloader with
  | connected d =>
    by_cases h : position = d.position
    · subst h
      simp [hpending]
    · simp [h]
  | disconnected => simp [hpending]
  | finished => simp [hpending]

theorem finishDownload_cases (s : State) (reply : Waiter) :
    (∃ uploader, s.uploader = some uploader ∧
        (∀ chunk waiter position size, s.pending ≠ .data chunk waiter position size) ∧
        s.finishDownload reply =
          ⟨{ s with downloader := .finished, pending := .error .finished },
            s.replaceDownloader ++ [.reply reply .done], .cont⟩) ∨
      (s.uploader = none ∧
        s.finishDownload reply =
          ⟨{ s with downloader := .finished }, s.replaceDownloader ++ [.reply reply .done],
            .brk⟩) ∨
      ∃ uploader chunk waiter position size, s.uploader = some uploader ∧
        s.pending = .data chunk waiter position size ∧
        s.finishDownload reply =
          ⟨{ s with
              downloader := .finished
              uploader := none
              pending := .data chunk none position size },
            s.replaceDownloader ++ replyTo waiter (.error .finished) ++ [.reply reply .done],
            .brk⟩ := by
  unfold finishDownload terminateUploader
  cases hu : s.uploader with
  | none => exact .inr (.inl ⟨rfl, by simp⟩)
  | some uploader =>
    cases hp : s.pending with
    | none => exact .inl ⟨uploader, rfl, by simp, by simp⟩
    | error error => exact .inl ⟨uploader, rfl, by simp, by simp⟩
    | data chunk waiter position size =>
      exact .inr (.inr ⟨uploader, chunk, waiter, position, size, rfl, rfl, by simp⟩)

theorem startUpload_cases (s : State) (token : Token) (position : Position) (reply : Waiter) :
    (∃ error, s.evictUploader.1.checkStartPosition position = .error error ∧
        s.startUpload token position reply =
          (s.evictUploader.1, s.evictUploader.2 ++ [replyUpload reply (.error error)])) ∨
      s.evictUploader.1.checkStartPosition position = .ok () ∧
        s.startUpload token position reply =
          ({ s.evictUploader.1 with
              pending := s.evictUploader.1.pending.clearError
              uploader := some ⟨token, position⟩ },
            s.evictUploader.2 ++ sendUploadProgress s.evictUploader.1.uploaderWs position ++
              [replyUpload reply (.ok ())]) := by
  unfold startUpload
  cases hc : s.evictUploader.1.checkStartPosition position with
  | error error => exact .inl ⟨error, rfl, by simp [hc]⟩
  | ok _ => exact .inr ⟨rfl, by simp [hc]⟩

theorem uploadData_cases (s : State) (token : Token) (chunk : Chunk) (reply : Waiter) :
    (∃ error, s.uploadData token chunk reply = (s, [replyUpload reply (.error error)])) ∨
      ∃ uploader, s.uploader = some uploader ∧ uploader.token = token ∧ s.pending = .none ∧
        ((∃ downloader, s.downloader = .connected downloader ∧
            s.uploadData token chunk reply =
              ({ s with
                  uploader := some { uploader with position := addU64 uploader.position chunk.len }
                  downloader := .connected
                    { downloader with position := addU64 uploader.position chunk.len } },
                .event downloader.events chunk.intoEvent ::
                  (sendUploadProgress s.uploaderWs (addU64 uploader.position chunk.len) ++
                    [replyUpload reply (.ok ())]))) ∨
          (∀ downloader, s.downloader ≠ .connected downloader) ∧
            s.uploadData token chunk reply =
              ({ s with
                  uploader := some { uploader with position := addU64 uploader.position chunk.len }
                  pending := .data chunk (some reply) uploader.position chunk.len }, [])) := by
  unfold uploadData
  cases hu : s.uploader with
  | none => exact .inl ⟨_, rfl⟩
  | some uploader =>
    by_cases ht : uploader.token = token
    · cases hp : s.pending with
      | data => exact .inl ⟨.dataPending, by simp [ht]⟩
      | error error => exact .inl ⟨error, by simp [ht]⟩
      | none =>
        refine .inr ⟨uploader, rfl, ht, rfl, ?_⟩
        cases hd : s.downloader with
        | connected downloader => exact .inl ⟨downloader, rfl, by simp [ht]⟩
        | disconnected => exact .inr ⟨by simp, by simp [ht]⟩
        | finished => exact .inr ⟨by simp, by simp [ht]⟩
    · exact .inl ⟨.connectionReplaced, by simp [ht]⟩

theorem uploadData_refused (token : Token) (chunk : Chunk) (reply : Waiter)
    (h : s.uploaderToken = some token → s.pending ≠ .none) :
    ∃ error, s.uploadData token chunk reply = (s, [replyUpload reply (.error error)]) := by
  rcases s.uploadData_cases token chunk reply with
    hs | ⟨uploader, hu, rfl, hp, _⟩
  · exact hs
  · exact absurd hp (h (by simp [uploaderToken, hu]))

theorem flushUpload_cases (s : State) (token : Token) (reply : Waiter) :
    (∃ result, s.flushUpload token reply = (s, [replyUpload reply result])) ∨
      ∃ chunk waiter position size, s.uploaderToken = some token ∧
        s.pending = .data chunk waiter position size ∧
        s.flushUpload token reply =
          ({ s with pending := .data chunk (some reply) position size }, []) := by
  unfold flushUpload
  by_cases ht : s.uploaderToken = some token
  · cases hp : s.pending with
    | none => exact .inl ⟨.ok (), by simp [ht]⟩
    | error error => exact .inl ⟨.error error, by simp [ht]⟩
    | data chunk waiter position size =>
      exact .inr ⟨chunk, waiter, position, size, ht, rfl, by simp [ht]⟩
  · exact .inl ⟨.error .connectionReplaced, by simp [ht]⟩

theorem disconnected_cases (s : State) (token : Token) (peer : Peer) :
    s.disconnected token peer = (s, .cont) ∨
      (∃ downloader, s.downloader = .connected downloader ∧ downloader.token = token ∧
        (peer = .downloader true ∧
            s.disconnected token peer = ({ s with downloader := .finished }, .brk) ∨
          peer = .downloader false ∧
            s.disconnected token peer = ({ s with downloader := .disconnected }, .cont))) ∨
      (peer = .uploader ∧ s.uploaderToken = some token ∧
        (s.downloader = .finished ∧
            s.disconnected token peer = ({ s with uploader := none }, .brk) ∨
          s.downloader ≠ .finished ∧
            s.disconnected token peer =
              ({ s with uploader := none, pending := s.pending.clearError }, .cont))) ∨
      ∃ direction, peer = .websocket direction ∧
        (s.websocket direction).map WebsocketPeer.token = some token ∧
        s.disconnected token peer = (s.setWebsocket direction none, .cont) := by
  cases peer with
  | downloader completed =>
    cases hd : s.downloader with
    | connected downloader =>
      by_cases ht : downloader.token = token
      · right; left
        refine ⟨downloader, rfl, ht, ?_⟩
        cases completed <;> simp [disconnected, hd, ht]
      · left; simp [disconnected, hd, ht]
    | disconnected => left; simp [disconnected, hd]
    | finished => left; simp [disconnected, hd]
  | uploader =>
    by_cases ht : s.uploaderToken = some token
    · right; right; left
      refine ⟨rfl, ht, ?_⟩
      cases hd : s.downloader <;> simp [disconnected, hd, ht]
    · left; simp [disconnected, ht]
  | websocket direction =>
    by_cases ht : (s.websocket direction).map WebsocketPeer.token = some token
    · right; right; right
      exact ⟨direction, rfl, ht, by simp [disconnected, ht]⟩
    · left; simp [disconnected, ht]

def SameSignaling (s t : State) : Prop :=
  t.uploaderWs = s.uploaderWs ∧ t.downloaderWs = s.downloaderWs ∧
    t.uploaderWsHeld = s.uploaderWsHeld ∧ t.downloaderWsHeld = s.downloaderWsHeld

theorem SameSignaling.websocket (h : s.SameSignaling t) (direction : Direction) :
    t.websocket direction = s.websocket direction := by
  cases direction with
  | upload => exact h.1
  | download => exact h.2.1

theorem terminateUploader_sameSignaling (s : State) (error : UploadError) :
    s.SameSignaling (s.terminateUploader error).1 := by
  unfold terminateUploader
  split
  · exact ⟨rfl, rfl, rfl, rfl⟩
  · split <;> exact ⟨rfl, rfl, rfl, rfl⟩

theorem evictUploader_sameSignaling (s : State) : s.SameSignaling s.evictUploader.1 := by
  unfold evictUploader
  split
  · exact terminateUploader_sameSignaling s .connectionReplaced
  · exact ⟨rfl, rfl, rfl, rfl⟩

end State

theorem Session.step_eq_some {session next : Session} {c : Command} {os : List Effect} :
    session.step c = some (next, os) ↔
      session.running = true ∧
        next = ⟨(session.state.handle c).state, (session.state.handle c).flow = .cont⟩ ∧
        os = (session.state.handle c).effects := by
  simp only [Session.step, Option.ite_none_right_eq_some, Option.some.injEq, Prod.mk.injEq]
  grind

end Glopfile.Relay

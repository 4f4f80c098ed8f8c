import Glopfile.Relay.Operations

/-!
# What a command does to a session

`Handled` lists the outcomes of the commands, each with the state and the effects that it has.
What is said of every command is a case analysis of its outcome; it does not go back to the
operations.
-/

namespace Glopfile.Relay

inductive Answer (s : State) : Command → Waiter → Reply → Prop
  | metadata {w : Waiter} : Answer s (.metadata w) w (.metadata s.metadata)
  | checked {position : Position} {w : Waiter} :
      Answer s (.checkStartUpload position w) w (.upload (s.checkStartPosition position))
  | replaced {c : Command} {token : Token} {w : Waiter}
      (hc : (∃ chunk, c = .uploadData token chunk w) ∨ c = .flushUpload token w)
      (hu : s.uploaderToken ≠ some token) :
      Answer s c w (.upload (.error .connectionReplaced))
  | dataPending {token : Token} {chunk held : Chunk} {w : Waiter} {waiter : Option Waiter}
      {position : Position} {size : ℕ} (hu : s.uploaderToken = some token)
      (hp : s.pending = .data held waiter position size) :
      Answer s (.uploadData token chunk w) w (.upload (.error .dataPending))
  | queued {c : Command} {token : Token} {w : Waiter} {error : UploadError}
      (hc : (∃ chunk, c = .uploadData token chunk w) ∨ c = .flushUpload token w)
      (hu : s.uploaderToken = some token) (hp : s.pending = .error error) :
      Answer s c w (.upload (.error error))
  | flushed {token : Token} {w : Waiter} (hu : s.uploaderToken = some token)
      (hp : s.pending = .none) : Answer s (.flushUpload token w) w (.upload (.ok ()))

/-- What a download that has started at this position leaves pending: nothing, or the error that
asks an uploader elsewhere to resume from there. -/
inductive Settles (s : State) (position : Position) : Pending → Prop
  | none (hu : ∀ uploader, s.uploader = some uploader → uploader.position = position) :
      Settles s position .none
  | resume {uploader : Uploader} (hu : s.uploader = some uploader)
      (hne : uploader.position ≠ position) :
      Settles s position (.error (.position position))

/-- Effects that no upload or download sees: frames, and the reply to the command. -/
structure Command.Signals (c : Command) (os : List Effect) : Prop where
  unseen : ∀ o ∈ os, (∃ channel command, o = .websocket channel command ∧
    ∀ position, command ≠ .progress position) ∨ ∃ w, c.waiter = some w ∧ o = .reply w .done
  answers : ∀ w, c.waiter = some w → Effect.reply w .done ∈ os

def Command.Signaling : Command → Prop
  | .startWebsocket _ _ _ | .websocketData _ _ | .disconnected _ (.websocket _) => True
  | _ => False

inductive Handled (s : State) : Command → Outcome → Prop
  | answered {c : Command} {w : Waiter} {reply : Reply} (hanswer : Answer s c w reply) :
      Handled s c ⟨s, [.reply w reply], .cont⟩
  | released {downloader : Downloader} {w : Waiter} {chunk : Chunk} {waiter : Option Waiter}
      {size : ℕ} {pending : Pending}
      (hp : s.pending = .data chunk waiter downloader.position size)
      (hsettles : Settles s (addU64 downloader.position size) pending) :
      Handled s (.startDownload downloader w)
        ⟨{ s with
            downloader := .connected
              { downloader with position := addU64 downloader.position size }
            pending := pending },
          s.replaceDownloader ++
            .event downloader.events chunk.intoEvent ::
              (sendUploadProgress s.uploaderWs (addU64 downloader.position size) ++
                replyTo waiter (.ok ())) ++ [.reply w .done], .cont⟩
  | downloads {downloader : Downloader} {w : Waiter} {pending : Pending}
      (hp : ∀ chunk waiter size, s.pending ≠ .data chunk waiter downloader.position size)
      (hsettles : Settles s downloader.position pending) :
      Handled s (.startDownload downloader w)
        ⟨{ s with downloader := .connected downloader, pending := pending },
          s.replaceDownloader ++
            replyTo s.pending.waiter (.error (.position downloader.position)) ++ [.reply w .done],
          .cont⟩
  | finishTold {w : Waiter} {uploader : Uploader} (hu : s.uploader = some uploader)
      (hp : ∀ chunk waiter position size, s.pending ≠ .data chunk waiter position size) :
      Handled s (.finishDownload w)
        ⟨{ s with downloader := .finished, pending := .error .finished },
          s.replaceDownloader ++ [.reply w .done], .cont⟩
  | finishIdle {w : Waiter} (hu : s.uploader = none) :
      Handled s (.finishDownload w)
        ⟨{ s with downloader := .finished }, s.replaceDownloader ++ [.reply w .done], .brk⟩
  | finishHeld {w : Waiter} {uploader : Uploader} {chunk : Chunk} {waiter : Option Waiter}
      {position : Position} {size : ℕ} (hu : s.uploader = some uploader)
      (hp : s.pending = .data chunk waiter position size) :
      Handled s (.finishDownload w)
        ⟨{ s with
            downloader := .finished
            uploader := none
            pending := .data chunk none position size },
          s.replaceDownloader ++ replyTo waiter (.error .finished) ++ [.reply w .done], .brk⟩
  | startRefused {token : Token} {position : Position} {w : Waiter} {error : UploadError}
      (hcheck : s.evictUploader.1.checkStartPosition position = .error error) :
      Handled s (.startUpload token position w)
        ⟨s.evictUploader.1, s.evictUploader.2 ++ [replyUpload w (.error error)], .cont⟩
  | starts {token : Token} {position : Position} {w : Waiter}
      (hcheck : s.evictUploader.1.checkStartPosition position = .ok ()) :
      Handled s (.startUpload token position w)
        ⟨{ s.evictUploader.1 with
            pending := s.evictUploader.1.pending.clearError
            uploader := some ⟨token, position⟩ },
          s.evictUploader.2 ++ sendUploadProgress s.evictUploader.1.uploaderWs position ++
            [replyUpload w (.ok ())], .cont⟩
  | relays {token : Token} {position : Position} {chunk : Chunk} {w : Waiter}
      {downloader : Downloader} (hu : s.uploader = some ⟨token, position⟩)
      (hp : s.pending = .none) (hd : s.downloader = .connected downloader) :
      Handled s (.uploadData token chunk w)
        ⟨{ s with
            uploader := some ⟨token, addU64 position chunk.len⟩
            downloader := .connected { downloader with position := addU64 position chunk.len } },
          .event downloader.events chunk.intoEvent ::
            (sendUploadProgress s.uploaderWs (addU64 position chunk.len) ++
              [replyUpload w (.ok ())]), .cont⟩
  | holds {token : Token} {position : Position} {chunk : Chunk} {w : Waiter}
      (hu : s.uploader = some ⟨token, position⟩) (hp : s.pending = .none)
      (hd : ∀ downloader, s.downloader ≠ .connected downloader) :
      Handled s (.uploadData token chunk w)
        ⟨{ s with
            uploader := some ⟨token, addU64 position chunk.len⟩
            pending := .data chunk (some w) position chunk.len }, [], .cont⟩
  | flushes {token : Token} {w : Waiter} {chunk : Chunk} {waiter : Option Waiter}
      {position : Position} {size : ℕ} (hu : s.uploaderToken = some token)
      (hp : s.pending = .data chunk waiter position size) :
      Handled s (.flushUpload token w)
        ⟨{ s with pending := .data chunk (some w) position size }, [], .cont⟩
  | signals {c : Command} {t : State} {os : List Effect} (hsame : s.SameTransfer t)
      (hos : c.Signals os) (hc : c.Signaling) (hmetadata : t.metadata = s.metadata) :
      Handled s c ⟨t, os, .cont⟩
  | ignored {token : Token} {peer : Peer} : Handled s (.disconnected token peer) ⟨s, [], .cont⟩
  | downloaderLeft {token : Token} {completed : Bool} {downloader : Downloader}
      (hd : s.downloader = .connected downloader) (htoken : downloader.token = token) :
      Handled s (.disconnected token (.downloader completed))
        ⟨{ s with downloader := if completed then .finished else .disconnected }, [],
          if completed then .brk else .cont⟩
  | uploaderLeft {token : Token} (hu : s.uploaderToken = some token)
      (hd : s.downloader ≠ .finished) :
      Handled s (.disconnected token .uploader)
        ⟨{ s with uploader := none, pending := s.pending.clearError }, [], .cont⟩
  | uploaderDone {token : Token} (hu : s.uploaderToken = some token)
      (hd : s.downloader = .finished) :
      Handled s (.disconnected token .uploader) ⟨{ s with uploader := none }, [], .brk⟩

variable {s : State} {c : Command} {token : Token} {chunk : Chunk} {w : Waiter}

theorem Answer.waiter {reply : Reply} (h : Answer s c w reply) : c.waiter = some w := by
  cases h with
  | replaced hc | queued hc => rcases hc with ⟨chunk, rfl⟩ | rfl <;> rfl
  | _ => rfl

namespace Command.Signals
variable {os : List Effect}

theorem event {events : Sender} {event : DownloadEvent} (h : c.Signals os) :
    Effect.event events event ∉ os := by
  intro hmem
  rcases h.unseen _ hmem with ⟨_, _, heq, _⟩ | ⟨_, _, heq⟩ <;> cases heq

theorem reply {reply : Reply} (h : c.Signals os) (hmem : Effect.reply w reply ∈ os) :
    c.waiter = some w ∧ reply = .done := by
  rcases h.unseen _ hmem with ⟨_, _, heq, _⟩ | ⟨_, hw, heq⟩
  · cases heq
  · obtain ⟨rfl, rfl⟩ := Effect.reply.inj heq
    exact ⟨hw, rfl⟩

theorem progress {channel : Sender} {position : Position} (h : c.Signals os) :
    Effect.websocket channel (.progress position) ∉ os := by
  intro hmem
  rcases h.unseen _ hmem with ⟨_, _, heq, hne⟩ | ⟨_, _, heq⟩
  · exact hne position (Effect.websocket.inj heq).2.symm
  · cases heq

end Command.Signals

theorem startDownload_settles (s : State) (downloader : Downloader) :
    ∃ pending, Settles s (s.releasePending downloader).1.position pending ∧
      (s.startDownload downloader).1 =
        { s with downloader := .connected (s.releasePending downloader).1, pending := pending } := by
  cases hu : s.uploader with
  | none =>
    refine ⟨.none, .none (by simp [hu]), ?_⟩
    simp [State.startDownload, hu]
  | some uploader =>
    by_cases hposition : uploader.position = (s.releasePending downloader).1.position
    · refine ⟨.none, .none fun other hother => ?_, by simp [State.startDownload, hu, hposition]⟩
      rwa [← Option.some.inj (hu.symm.trans hother)]
    · exact ⟨_, .resume hu hposition,
        by simp [State.startDownload, hu, hposition, State.terminateUploader]⟩

theorem startDownload_handled (s : State) (downloader : Downloader) (w : Waiter) :
    Handled s (.startDownload downloader w) (s.handle (.startDownload downloader w)) := by
  obtain ⟨pending, hsettles, hstate⟩ := startDownload_settles s downloader
  simp only [State.handle, State.startDownload_effects, hstate]
  by_cases hdata : ∃ chunk waiter size, s.pending = .data chunk waiter downloader.position size
  · obtain ⟨chunk, waiter, size, hp⟩ := hdata
    have hr : s.releasePending downloader =
        ({ downloader with position := addU64 downloader.position size },
          .event downloader.events chunk.intoEvent ::
            (sendUploadProgress s.uploaderWs (addU64 downloader.position size) ++
              replyTo waiter (.ok ()))) := by
      simp [State.releasePending, hp]
    rw [hr] at hsettles ⊢
    exact .released hp hsettles
  · have hr := (s.releasePending_cases downloader).resolve_left
      fun ⟨chunk, waiter, size, hp, _⟩ => hdata ⟨chunk, waiter, size, hp⟩
    rw [hr] at hsettles ⊢
    exact .downloads (fun chunk waiter size hp => hdata ⟨chunk, waiter, size, hp⟩) hsettles

theorem uploadData_answer {error : UploadError}
    (h : s.uploadData token chunk w = (s, [replyUpload w (.error error)])) :
    Answer s (.uploadData token chunk w) w (.upload (.error error)) := by
  unfold State.uploadData at h
  cases hu : s.uploader with
  | none =>
    obtain rfl : _ = error := by simpa [hu, replyUpload] using h
    exact .replaced (.inl ⟨chunk, rfl⟩) (by simp [State.uploaderToken, hu])
  | some uploader =>
    simp only [hu] at h
    split_ifs at h with hne
    · obtain rfl : _ = error := by simpa [replyUpload] using h
      exact .replaced (.inl ⟨chunk, rfl⟩) (by simpa [State.uploaderToken, hu] using hne)
    · have htoken : s.uploaderToken = some token := by
        simpa [State.uploaderToken, hu] using hne
      cases hp : s.pending with
      | none => cases hd : s.downloader <;> simp [hp, hd, replyUpload] at h
      | data held waiter position size =>
        obtain rfl : _ = error := by simpa [hp, replyUpload] using h
        exact .dataPending htoken hp
      | error queued =>
        obtain rfl : queued = error := by simpa [hp, replyUpload] using h
        exact .queued (.inl ⟨chunk, rfl⟩) htoken hp

theorem uploadData_handled (s : State) (token : Token) (chunk : Chunk) (w : Waiter) :
    Handled s (.uploadData token chunk w) (s.handle (.uploadData token chunk w)) := by
  simp only [State.handle]
  rcases s.uploadData_cases token chunk w with
    ⟨error, hs⟩ | ⟨⟨_, position⟩, hu, rfl, hp, ⟨_, hd, hs⟩ | ⟨hd, hs⟩⟩
  · rw [hs]
    exact .answered (uploadData_answer hs)
  · rw [hs]
    exact .relays hu hp hd
  · rw [hs]
    exact .holds hu hp hd

theorem flushUpload_handled (s : State) (token : Token) (w : Waiter) :
    Handled s (.flushUpload token w) (s.handle (.flushUpload token w)) := by
  simp only [State.handle, State.flushUpload]
  split_ifs with hne
  · exact .answered (.replaced (.inr rfl) hne)
  · have hu := not_not.mp hne
    cases hp : s.pending with
    | error error => exact .answered (.queued (.inr rfl) hu hp)
    | data chunk waiter position size => exact .flushes hu hp
    | none => exact .answered (.flushed hu hp)

theorem disconnected_handled (s : State) (token : Token) (peer : Peer) :
    Handled s (.disconnected token peer) (s.handle (.disconnected token peer)) := by
  simp only [State.handle]
  rcases s.disconnected_cases token peer with
    hs | ⟨_, hd, htoken, ⟨rfl, hs⟩ | ⟨rfl, hs⟩⟩ | ⟨rfl, hu, ⟨hd, hs⟩ | ⟨hd, hs⟩⟩ |
      ⟨direction, rfl, _, hs⟩
  · rw [hs]
    exact .ignored
  · rw [hs]
    exact .downloaderLeft hd htoken
  · rw [hs]
    exact .downloaderLeft hd htoken
  · rw [hs]
    exact .uploaderDone hu hd
  · rw [hs]
    exact .uploaderLeft hu hd
  · rw [hs]
    exact .signals (s.setWebsocket_sameTransfer direction none) ⟨nofun, nofun⟩ trivial
      (by cases direction <;> rfl)

theorem startWebsocket_signals {direction : Direction} {peer : WebsocketPeer} :
    Command.Signals (.startWebsocket direction peer w)
      (s.handle (.startWebsocket direction peer w)).effects where
  unseen o hmem := by
    simp only [State.handle, State.startWebsocket, List.mem_append, List.mem_map,
      List.mem_singleton] at hmem
    rcases hmem with (⟨frame, -, rfl⟩ | hmem) | rfl
    · exact .inl ⟨_, _, rfl, nofun⟩
    · split at hmem
      · exact .inl ⟨_, _, List.mem_singleton.mp hmem, nofun⟩
      · cases hmem
    · exact .inr ⟨w, rfl, rfl⟩
  answers other hother := by
    obtain rfl := Option.some.inj hother
    exact List.mem_append_right _ (List.mem_singleton_self _)

theorem relayFrame_signals {direction : Direction} {frame : Frame} :
    Command.Signals (.websocketData direction frame)
      (s.handle (.websocketData direction frame)).effects where
  unseen o hmem := by
    simp only [State.handle, State.relayFrame] at hmem
    split at hmem
    · exact .inl ⟨_, _, List.mem_singleton.mp hmem, nofun⟩
    · cases hmem
  answers _ hother := nomatch hother

theorem relayFrame_metadata {direction : Direction} {frame : Frame} :
    (s.relayFrame direction frame).1.metadata = s.metadata := by
  unfold State.relayFrame State.holdFrame
  split
  · rfl
  · split_ifs
    · rfl
    · cases direction <;> rfl

theorem State.handled (s : State) (c : Command) : Handled s c (s.handle c) := by
  cases c with
  | metadata w => exact .answered .metadata
  | startDownload downloader w => exact startDownload_handled s downloader w
  | finishDownload w =>
    simp only [State.handle]
    rcases s.finishDownload_cases w with
      ⟨_, hu, hp, hf⟩ | ⟨hu, hf⟩ | ⟨_, _, _, _, _, hu, hp, hf⟩
    · exact hf ▸ .finishTold hu hp
    · exact hf ▸ .finishIdle hu
    · exact hf ▸ .finishHeld hu hp
  | checkStartUpload position w => exact .answered .checked
  | startUpload token position w =>
    simp only [State.handle]
    rcases s.startUpload_cases token position w with ⟨_, hcheck, hs⟩ | ⟨hcheck, hs⟩
    · rw [hs]
      exact .startRefused hcheck
    · rw [hs]
      exact .starts hcheck
  | uploadData token chunk w => exact uploadData_handled s token chunk w
  | flushUpload token w => exact flushUpload_handled s token w
  | startWebsocket direction peer w =>
    exact .signals (s.startWebsocket_sameTransfer direction peer) startWebsocket_signals trivial
      (by cases direction <;> rfl)
  | websocketData direction frame =>
    exact .signals (s.relayFrame_sameTransfer direction frame) relayFrame_signals trivial
      relayFrame_metadata
  | disconnected token peer => exact disconnected_handled s token peer

theorem handle_sameSignaling (hc : ¬c.Signaling) : s.SameSignaling (s.handle c).state := by
  have ho := s.handled c
  generalize s.handle c = o at ho ⊢
  cases ho with
  | startRefused | starts => exact s.evictUploader_sameSignaling
  | signals _ _ hsignaling => exact absurd hsignaling hc
  | _ => exact ⟨rfl, rfl, rfl, rfl⟩

inductive Stands (s : State) (c : Command) : Uploader → Prop
  | kept {uploader : Uploader} (hu : s.uploader = some uploader) : Stands s c uploader
  | started {token : Token} {position : Position} {reply : Waiter}
      (hc : c = .startUpload token position reply) : Stands s c ⟨token, position⟩
  | advanced {token : Token} {position : Position} {chunk : Chunk} {reply : Waiter}
      (hc : c = .uploadData token chunk reply) (hu : s.uploader = some ⟨token, position⟩)
      (hp : s.pending = .none) : Stands s c ⟨token, addU64 position chunk.len⟩

theorem handle_uploader {uploader : Uploader} (h : (s.handle c).state.uploader = some uploader) :
    Stands s c uploader := by
  have hc := s.handled c
  generalize s.handle c = o at hc h
  cases hc with
  | answered | released | downloads | finishTold | finishIdle | flushes | downloaderLeft | ignored =>
    exact .kept h
  | signals hsame => exact .kept (hsame.2.1 ▸ h)
  | startRefused => simp at h
  | starts =>
    obtain rfl := Option.some.inj h
    exact .started rfl
  | relays hu hp hd =>
    obtain rfl := Option.some.inj h
    exact .advanced rfl hu hp
  | holds hu hp hd =>
    obtain rfl := Option.some.inj h
    exact .advanced rfl hu hp
  | finishHeld | uploaderLeft | uploaderDone => cases h

end Glopfile.Relay

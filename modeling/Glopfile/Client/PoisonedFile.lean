import Glopfile.Client.RequestWindow

/-!
# A file whose flush has failed

A flush that fails leaves the file poisoned, and every later operation on it panics. The relay
task returns such an error at once. The p2p task hands it to `download_p2p`, which ends a p2p
transfer with it, but with a relay to fall back on goes on and asks the file for its offset.
-/

namespace Glopfile.Client

open EventMachine (Trace)

variable {decrypt : List UInt8 → Option (List UInt8)} {transport : Transport} {fileSize : ℕ}
  {d : Download} {e : Event} {s : DownloadState} {sends : Option ℕ} {io : List IoResult}

def Phase.direct : Phase → Bool
  | .transferring _ (some _) | .finishing (some _) | .fallback _ _ | .continuing _ => false
  | _ => true

def DecryptedFile.pendingWrite (f : DecryptedFile) : Option PendingWrite :=
  match f.state with
  | .unwritten data => if data.length = f.fileSize then some (.decrypt data) else none
  | .pending w => some w
  | .complete | .poisoned => none

def Event.peerIo : Event → List IoResult
  | .peerOpened _ io | .peerMessage _ _ io | .peerFlush _ io => io
  | _ => []

inductive PeerPolls (decrypt : List UInt8 → Option (List UInt8)) (d : Download) (e : Event) :
    OutputFile × WritePoll → Prop
  | requesting {sends : Option ℕ} {file : DecryptedFile} {outputs : List Output}
      {w : PendingWrite} : d.requestSends e = some sends → Stored d e file outputs →
      file.pendingWrite = some w → PeerPolls decrypt d e (w.poll decrypt file.file e.peerIo)
  | flushing {sends : Option ℕ} {io : List IoResult} {w : PendingWrite} :
      e = .peerFlush sends io → d.state.decryptedFile.pendingWrite = some w →
      PeerPolls decrypt d e (w.poll decrypt d.state.decryptedFile.file io)

namespace Download

/-- With a relay to fall back on, the p2p task meets no error of the decryption or of the output
file. -/
def FlushSucceeds (decrypt : List UInt8 → Option (List UInt8)) (d : Download) (e : Event) : Prop :=
  d.transport = .both → ∀ file error, ¬PeerPolls decrypt d e (file, .failed error)

structure Usable (d : Download) : Prop where
  alive : d.phase ≠ .panicked .invalidState
  poisoned : d.state.decryptedFile.state = .poisoned →
    ∃ error, d.phase = .resolved (.error (.io error))
  alone : d.transport ≠ .both → d.phase.direct = true

end Download

structure Handled.Usable (decrypt : List UInt8 → Option (List UInt8)) (d : Download) (e : Event)
    (h : Handled) : Prop where
  alive : h.result ≠ .panicked .invalidState
  failed : h.state.decryptedFile.state = .poisoned → ∃ error, h.result = .failed (.io error)
  polled : h.state.decryptedFile.state = .poisoned →
    ∃ file error, PeerPolls decrypt d e (file, .failed error)

section Handler

theorem DecryptedFile.pollFlush_failed {f g : DecryptedFile} {error : IoError}
    (h : f.pollFlush decrypt io = (g, .failed error)) :
    ∃ w file, f.pendingWrite = some w ∧ w.poll decrypt f.file io = (file, .failed error) := by
  have hpending : ∀ w, f.pollPending decrypt w io = (g, .failed error) →
      ∃ file, w.poll decrypt f.file io = (file, .failed error) := by
    intro w hpoll
    obtain ⟨file, ⟨_, _, _, hresult⟩ | ⟨_, _, hresult⟩ | ⟨error', hw, _, hresult⟩⟩ :=
      DecryptedFile.pollPending_cases hpoll
    · cases hresult
    · cases hresult
    · obtain rfl := FlushPoll.failed.inj hresult
      exact ⟨file, hw⟩
  rcases DecryptedFile.pollFlush_cases h with ⟨_, _, _, _, hresult⟩ | ⟨_, _, hresult⟩ |
    ⟨_, _, hresult⟩ | ⟨w, hstate | ⟨data, hstate, hlen, rfl⟩, hpoll⟩
  · cases hresult
  · cases hresult
  · cases hresult
  · obtain ⟨file, hw⟩ := hpending w hpoll
    exact ⟨w, file, by simp only [DecryptedFile.pendingWrite, hstate], hw⟩
  · obtain ⟨file, hw⟩ := hpending _ hpoll
    exact ⟨_, file, by simp only [DecryptedFile.pendingWrite, hstate, hlen, if_true], hw⟩

theorem finish_usable (hfile : s.decryptedFile.state ≠ .poisoned)
    (hpolls : ∀ w, s.decryptedFile.pendingWrite = some w →
      PeerPolls decrypt d e (w.poll decrypt s.decryptedFile.file io)) :
    (s.finish decrypt sends io).Usable decrypt d e := by
  obtain ⟨g, polled, hflush, hstate, hcases⟩ := finish_cases decrypt s sends io
  have hfailed : g.state = .poisoned → ∃ error, polled = .failed error := by
    intro hpoisoned
    by_contra hne
    exact DecryptedFile.pollFlush_unpoisoned hflush hfile (fun error h => hne ⟨error, h⟩) hpoisoned
  constructor
  · rcases hcases with ⟨_, h, _⟩ | ⟨_, _, h, _⟩ | ⟨rfl, _, _⟩ | ⟨_, h, _⟩ | ⟨_, h, _⟩
    · simp [h]
    · simp [h]
    · exact absurd (DecryptedFile.pollFlush_result hflush).2 hfile
    · simp [h]
    · simp [h]
  · rw [hstate]
    intro hpoisoned
    obtain ⟨error, rfl⟩ := hfailed hpoisoned
    rcases hcases with ⟨h, _⟩ | ⟨failure, _, h, _⟩ | ⟨h, _⟩ | ⟨h, _⟩ | ⟨h, _⟩
    · cases h
    · exact ⟨failure, h⟩
    · cases h
    · cases h
    · cases h
  · rw [hstate]
    intro hpoisoned
    obtain ⟨error, rfl⟩ := hfailed hpoisoned
    obtain ⟨w, file, hw, hpoll⟩ := DecryptedFile.pollFlush_failed hflush
    exact ⟨file, error, hpoll ▸ hpolls w hw⟩

theorem Stored.unpoisoned {file : DecryptedFile} {outputs : List Output}
    (h : Stored d e file outputs) (hfile : d.state.decryptedFile.state ≠ .poisoned) :
    file.state ≠ .poisoned := by
  cases h with
  | nothing hacc => exact hfile
  | response hoff hacc hwrite =>
    rcases DecryptedFile.writeAll_ok hwrite with ⟨rfl, _⟩ | ⟨_, _, rfl⟩
    · exact hfile
    · exact nofun

theorem Handled.Usable.of_file {h : Handled} (hfile : h.state.decryptedFile.state ≠ .poisoned)
    (halive : h.result ≠ .panicked .invalidState) : h.Usable decrypt d e :=
  ⟨halive, fun hpoisoned => absurd hpoisoned hfile, fun hpoisoned => absurd hpoisoned hfile⟩

theorem Handled.Usable.after {h : Handled} (hh : h.Usable decrypt d e) (outputs : List Output) :
    (h.after outputs).Usable decrypt d e := ⟨hh.alive, hh.failed, hh.polled⟩

theorem requestDataOrFinish_usable {file : DecryptedFile} {outputs : List Output}
    (hfile : d.state.decryptedFile.state ≠ .poisoned) (hsends : d.requestSends e = some sends)
    (hst : Stored d e file outputs) :
    (DownloadState.requestDataOrFinish decrypt { d.state with decryptedFile := file } sends
      e.peerIo).Usable decrypt d e := by
  have hstored : file.state ≠ .poisoned := hst.unpoisoned hfile
  obtain ⟨received, hoffset⟩ := DecryptedFile.exists_offset hstored
  unfold DownloadState.requestDataOrFinish
  simp only [hoffset]
  split_ifs
  · obtain ⟨hsame, -, hresult⟩ := DownloadState.requestData_frame received
      (d.state.totalLen - d.state.requestedOffset + 1) { d.state with decryptedFile := file } sends
    refine .of_file (by rw [hsame]; exact hstored) ?_
    rcases hresult with h | h | h <;> simp [h]
  · exact finish_usable hstored fun w hw => .requesting hsends hst hw

theorem dataResponse_usable {offset : ℕ} {data : List UInt8}
    (hfile : d.state.decryptedFile.state ≠ .poisoned) :
    (d.state.handleUploaderMessage decrypt sends io (.dataResponse offset data)).Usable decrypt d
      (.peerMessage (some (.dataResponse offset data)) sends io) := by
  obtain ⟨received, hoffset⟩ := DecryptedFile.exists_offset hfile
  simp only [DownloadState.handleUploaderMessage, hoffset]
  by_cases heq : received = offset
  · subst heq
    have hacc : d.accepts (.peerMessage (some (.dataResponse received data)) sends io) =
        some data := if_pos hoffset
    simp only [if_true]
    rcases hwrite : d.state.decryptedFile.writeAll data with ⟨file, _ | ⟨error⟩ | ⟨⟨⟩⟩⟩
    · obtain ⟨_, _, _, hpoisoned⟩ := DecryptedFile.writeAll_refused hwrite (by simp)
      exact absurd (hpoisoned rfl) hfile
    · exact .of_file hfile (by simp)
    · exact (requestDataOrFinish_usable hfile rfl (.response hoffset hacc hwrite)).after _
  · simp only [if_neg heq]
    have hst : Stored d (.peerMessage (some (.dataResponse offset data)) sends io)
        d.state.decryptedFile [] :=
      .nothing (if_neg fun hsame => heq (Option.some.inj (hoffset.symm.trans hsame)))
    exact requestDataOrFinish_usable hfile rfl hst

theorem dataChannelMessage_usable {message : Option UploaderMessage}
    (hfile : d.state.decryptedFile.state ≠ .poisoned) :
    (d.state.dataChannelMessage decrypt message sends io).Usable decrypt d
      (.peerMessage message sends io) := by
  cases message with
  | none => exact .of_file hfile nofun
  | some message =>
    cases message with
    | hello => exact .of_file hfile nofun
    | unknown => exact .of_file hfile nofun
    | dataResponse offset data => exact dataResponse_usable hfile

theorem connectMessage_usable {message : Option UploaderMessage}
    (hfile : d.state.decryptedFile.state ≠ .poisoned) (hconnects : d.phase.connects = true) :
    (d.state.connectMessage decrypt message sends io).Usable decrypt d
      (.peerMessage message sends io) := by
  cases message with
  | none => exact .of_file hfile nofun
  | some message =>
    cases message with
    | hello =>
      have hsends : d.requestSends (.peerMessage (some .hello) sends io) = some sends :=
        if_pos hconnects
      exact (requestDataOrFinish_usable hfile hsends (.nothing rfl)).after _
    | unknown =>
      have hsends : d.requestSends (.peerMessage (some .unknown) sends io) = some sends :=
        if_pos hconnects
      exact (requestDataOrFinish_usable hfile hsends (.nothing rfl)).after _
    | dataResponse offset data =>
      rw [connectMessage_dataResponse]
      exact dataResponse_usable hfile

theorem PeerCall.usable {h : Handled} (hcall : PeerCall decrypt d e h)
    (hfile : d.state.decryptedFile.state ≠ .poisoned) : h.Usable decrypt d e := by
  cases hcall with
  | @opened sends io hconnects =>
    have hsends : d.requestSends (.peerOpened sends io) = some sends := by
      simp [Download.requestSends, hconnects]
    exact requestDataOrFinish_usable hfile hsends (.nothing rfl)
  | connecting hconnects => exact connectMessage_usable hfile hconnects
  | transferring _ => exact dataChannelMessage_usable hfile
  | flushed _ => exact finish_usable hfile fun w hw => .flushing rfl hw

end Handler

namespace Download

theorem Usable.of_file (hfile : d.state.decryptedFile.state ≠ .poisoned)
    (halive : d.phase ≠ .panicked .invalidState)
    (halone : d.transport ≠ .both → d.phase.direct = true) : d.Usable :=
  ⟨halive, fun hpoisoned => absurd hpoisoned hfile, halone⟩

theorem Usable.unpoisoned (hd : d.Usable) (hphase : ∀ result, d.phase ≠ .resolved result) :
    d.state.decryptedFile.state ≠ .poisoned := by
  intro hpoisoned
  obtain ⟨error, hresolved⟩ := hd.poisoned hpoisoned
  exact hphase _ hresolved

theorem Usable.peer_unpoisoned (hd : d.Usable) (hpeer : d.phase.peer.isSome = true) :
    d.state.decryptedFile.state ≠ .poisoned := by
  refine hd.unpoisoned fun result hresult => ?_
  rw [hresult] at hpeer
  cases hpeer

theorem Usable.relay_unpoisoned (hd : d.Usable) (hrelay : d.phase.relay.isSome = true) :
    d.state.decryptedFile.state ≠ .poisoned := by
  refine hd.unpoisoned fun result hresult => ?_
  rw [hresult] at hrelay
  cases hrelay

section Peer

theorem fallBack_usable {error : Error} (hfile : d.state.decryptedFile.state = .poisoned →
    d.transport ≠ .both ∧ ∃ failure, error = .io failure) : (d.fallBack error).Usable := by
  have hresolved : (d.setPhase (.resolved (.error error))).Usable := by
    refine ⟨nofun, fun hpoisoned => ?_, fun _ => rfl⟩
    obtain ⟨-, failure, rfl⟩ := hfile hpoisoned
    exact ⟨failure, rfl⟩
  unfold fallBack
  cases htransport : d.transport with
  | both =>
    exact .of_file (fun hpoisoned => (hfile hpoisoned).1 htransport) nofun (absurd htransport)
  | p2p => exact hresolved
  | relay => exact hresolved

theorem transferAgain_usable {before : ℕ} (hfile : d.state.decryptedFile.state ≠ .poisoned)
    (hboth : d.transport = .both) : (d.transferAgain before).Usable := by
  obtain ⟨offset, hoffset⟩ : ∃ offset, d.offset = some offset := DecryptedFile.exists_offset hfile
  unfold transferAgain
  simp only [hoffset]
  split_ifs
  · exact .of_file hfile nofun (absurd hboth)
  · exact .of_file hfile nofun (absurd hboth)

/-- A p2p task that returns an error is followed by an operation on the file only when there is a
relay to fall back on. -/
theorem peerError_usable {error : Error}
    (hpeer : d.phase.peer.isSome = true ∨ ∃ before, d.phase = .finishing before)
    (halone : d.transport ≠ .both → d.phase.direct = true)
    (hfile : d.state.decryptedFile.state = .poisoned →
      d.transport ≠ .both ∧ ∃ failure, error = .io failure) : (d.peerError error).Usable := by
  have hlater : d.phase.direct = false →
      d.transport = .both ∧ d.state.decryptedFile.state ≠ .poisoned := by
    intro hdirect
    have hboth : d.transport = .both := by
      by_contra hne
      rw [halone hne] at hdirect
      cases hdirect
    exact ⟨hboth, fun hpoisoned => (hfile hpoisoned).1 hboth⟩
  unfold peerError
  cases h : d.phase with
  | connecting peer => exact fallBack_usable hfile
  | transferring peer before =>
    cases before with
    | none => exact fallBack_usable hfile
    | some before =>
      obtain ⟨hboth, hunpoisoned⟩ := hlater (by rw [h]; rfl)
      exact transferAgain_usable hunpoisoned hboth
  | finishing before =>
    cases before with
    | none => exact fallBack_usable hfile
    | some before =>
      obtain ⟨hboth, hunpoisoned⟩ := hlater (by rw [h]; rfl)
      exact transferAgain_usable hunpoisoned hboth
  | fallback peer relay =>
    obtain ⟨hboth, hunpoisoned⟩ := hlater (by rw [h]; rfl)
    exact .of_file hunpoisoned nofun (absurd hboth)
  | starting => simp [h, Phase.peer] at hpeer
  | continuing relay => simp [h, Phase.peer] at hpeer
  | relaying relay => simp [h, Phase.peer] at hpeer
  | resolved result => simp [h, Phase.peer] at hpeer
  | panicked panic => simp [h, Phase.peer] at hpeer

theorem peerReturned_usable {flow : ControlFlow} (hpeer : d.phase.peer.isSome = true)
    (halone : d.transport ≠ .both → d.phase.direct = true)
    (hfile : d.state.decryptedFile.state ≠ .poisoned) : (d.peerReturned flow).1.Usable := by
  obtain ⟨offset, hoffset⟩ : ∃ offset, d.offset = some offset := DecryptedFile.exists_offset hfile
  unfold peerReturned
  cases h : d.phase with
  | connecting peer =>
    cases flow with
    | continues => exact .of_file hfile nofun fun _ => rfl
    | breaks => exact .of_file hfile nofun fun _ => rfl
  | transferring peer before =>
    rw [h] at halone
    cases before with
    | none =>
      cases flow with
      | continues => exact .of_file hfile nofun fun _ => rfl
      | breaks => exact .of_file hfile nofun fun _ => rfl
    | some before =>
      cases flow with
      | continues => exact .of_file hfile nofun fun hne => nomatch halone hne
      | breaks => exact .of_file hfile nofun fun hne => nomatch halone hne
  | fallback peer relay =>
    cases flow with
    | continues =>
      simp only [hoffset]
      refine .of_file hfile nofun fun hne => ?_
      rw [h] at halone
      cases halone hne
    | breaks => exact .of_file hfile nofun fun _ => rfl
  | starting => simp [h, Phase.peer] at hpeer
  | finishing before => simp [h, Phase.peer] at hpeer
  | continuing relay => simp [h, Phase.peer] at hpeer
  | relaying relay => simp [h, Phase.peer] at hpeer
  | resolved result => simp [h, Phase.peer] at hpeer
  | panicked panic => simp [h, Phase.peer] at hpeer

theorem direct_setPeer (phase : Phase) (task : PeerTask) :
    (phase.setPeer task).direct = phase.direct := by
  cases phase with
  | transferring peer before => cases before with | none | some before => rfl
  | _ => rfl

theorem setPeer_panicked {phase : Phase} {task : PeerTask} {panic : Panic}
    (h : phase.setPeer task = .panicked panic) : phase = .panicked panic := by
  cases phase with
  | panicked panic => exact h
  | _ => cases h

theorem peerHandled_usable {h : Handled} (hd : d.Usable) (hpeer : d.phase.peer.isSome = true)
    (hguard : d.FlushSucceeds decrypt e) (hh : h.Usable decrypt d e) :
    (d.peerHandled h).1.Usable := by
  have hboth : h.state.decryptedFile.state = .poisoned → d.transport ≠ .both := by
    intro hpoisoned htransport
    obtain ⟨file, error, hpolls⟩ := hh.polled hpoisoned
    exact hguard htransport file error hpolls
  have hsame : (∀ error, h.result ≠ .failed error) → h.state.decryptedFile.state ≠ .poisoned := by
    intro hne hpoisoned
    obtain ⟨error, hfailed⟩ := hh.failed hpoisoned
    exact hne _ hfailed
  unfold peerHandled
  cases hresult : h.result with
  | returned flow =>
    refine peerReturned_usable (d := { d with state := h.state }) hpeer hd.alone (hsame ?_)
    simp [hresult]
  | failed error =>
    refine peerError_usable (d := { d with state := h.state }) (.inl hpeer) hd.alone ?_
    intro hpoisoned
    obtain ⟨failure, hfailed⟩ := hh.failed hpoisoned
    rw [hresult] at hfailed
    exact ⟨hboth hpoisoned, failure, Await.failed.inj hfailed⟩
  | flushing =>
    refine .of_file (hsame (by simp [hresult])) ?_ fun hne => ?_
    · exact fun hpanic => hd.alive (setPeer_panicked hpanic)
    · exact (direct_setPeer _ _).trans (hd.alone hne)
  | panicked panic =>
    refine .of_file (hsame (by simp [hresult])) ?_ fun _ => rfl
    rintro ⟨⟩
    exact hh.alive hresult

end Peer

section Relay

theorem direct_setRelay (phase : Phase) (task : RelayTask) :
    (phase.setRelay task).direct = phase.direct := by
  cases phase with
  | transferring peer before => cases before with | none | some before => rfl
  | _ => rfl

theorem setRelay_panicked {phase : Phase} {task : RelayTask} {panic : Panic}
    (h : phase.setRelay task = .panicked panic) : phase = .panicked panic := by
  cases phase with
  | panicked panic => exact h
  | _ => cases h

theorem Usable.setRelay {file : DecryptedFile} {task : RelayTask} (hd : d.Usable)
    (hfile : file.state ≠ .poisoned) : ((d.setFile file).setPhase (d.phase.setRelay task)).Usable :=
  .of_file hfile (fun hpanic => hd.alive (setRelay_panicked hpanic)) fun hne =>
    (direct_setRelay _ _).trans (hd.alone hne)

theorem failed_usable {file : DecryptedFile} {error : IoError} :
    ((d.setFile file).setPhase (.resolved (.error (.io error)))).Usable :=
  ⟨nofun, fun _ => ⟨error, rfl⟩, fun _ => rfl⟩

theorem relayClose_usable (hd : d.Usable) (hfile : d.state.decryptedFile.state ≠ .poisoned) :
    (d.relayClose decrypt io).Usable := by
  unfold relayClose
  rcases hclose : d.state.decryptedFile.pollClose decrypt io with ⟨file, result⟩
  obtain ⟨flushed, hflush, hcases⟩ := DecryptedFile.pollClose_cases hclose
  have hresult := DecryptedFile.pollFlush_result hflush
  rcases hcases with ⟨rfl, hcomplete⟩ | ⟨rfl, -⟩ | ⟨rfl, hne⟩
  · exact .of_file (by rw [setPhase_state, setFile_file, hcomplete]; exact nofun) nofun fun _ => rfl
  · exact failed_usable
  · cases result with
    | pending => exact hd.setRelay hresult.2
    | ready => exact absurd rfl hne
    | failed error => exact failed_usable
    | panicked => exact absurd hresult.2 hfile

theorem relayFlush_usable (hd : d.Usable) (hfile : d.state.decryptedFile.state ≠ .poisoned) :
    (d.relayFlush decrypt io).Usable := by
  unfold relayFlush
  rcases hflush : d.state.decryptedFile.pollFlush decrypt io with ⟨file, result⟩
  have hresult := DecryptedFile.pollFlush_result hflush
  cases result with
  | pending => exact hd.setRelay hresult.2
  | ready =>
    have hunpoisoned : file.state ≠ .poisoned :=
      DecryptedFile.pollFlush_unpoisoned hflush hfile nofun
    exact relayClose_usable (.of_file hunpoisoned hd.alive hd.alone) hunpoisoned
  | failed error => exact failed_usable
  | panicked => exact absurd hresult.2 hfile

theorem relayChunk_usable {offset downloaded : ℕ} {data : List UInt8} (hd : d.Usable)
    (hfile : d.state.decryptedFile.state ≠ .poisoned) :
    (d.relayChunk offset downloaded data).1.Usable := by
  unfold relayChunk
  rcases hwrite : d.state.decryptedFile.writeAll data with ⟨file, _ | ⟨error⟩ | ⟨⟨⟩⟩⟩
  · obtain ⟨_, _, _, hpoisoned⟩ := DecryptedFile.writeAll_refused hwrite (by simp)
    exact absurd (hpoisoned rfl) hfile
  · exact .of_file hfile nofun fun _ => rfl
  · refine hd.setRelay ?_
    rcases DecryptedFile.writeAll_ok hwrite with ⟨rfl, _⟩ | ⟨_, _, rfl⟩
    · exact hfile
    · exact nofun

theorem relayRequest_usable (hd : d.Usable) (hfile : d.state.decryptedFile.state ≠ .poisoned) :
    d.relayRequest.1.Usable := by
  obtain ⟨offset, hoffset⟩ : ∃ offset, d.offset = some offset := DecryptedFile.exists_offset hfile
  unfold relayRequest
  simp only [hoffset]
  exact hd.setRelay hfile

end Relay

theorem Usable.setPeer {task : PeerTask} (hd : d.Usable)
    (hfile : d.state.decryptedFile.state ≠ .poisoned) :
    (d.setPhase (d.phase.setPeer task)).Usable :=
  .of_file hfile (fun hpanic => hd.alive (setPeer_panicked hpanic)) fun hne =>
    (direct_setPeer _ _).trans (hd.alone hne)

theorem Usable.peerError {error : Error} (hd : d.Usable)
    (hpeer : d.phase.peer.isSome = true ∨ ∃ before, d.phase = .finishing before) :
    (d.peerError error).Usable := by
  have hfile : d.state.decryptedFile.state ≠ .poisoned := by
    rcases hpeer with hsome | ⟨before, hphase⟩
    · exact hd.peer_unpoisoned hsome
    · exact hd.unpoisoned (by simp [hphase])
  exact peerError_usable hpeer hd.alone fun hpoisoned => absurd hpoisoned hfile

theorem Usable.resolved {result : Except Error Unit}
    (hfile : d.state.decryptedFile.state ≠ .poisoned) :
    (d.setPhase (.resolved result)).Usable := .of_file hfile nofun fun _ => rfl

theorem runs_usable {next : Download × List Output} (hd : d.Usable)
    (hguard : d.FlushSucceeds decrypt e) (h : Runs decrypt d e next) : next.1.Usable := by
  cases h with
  | @started ok hphase =>
    have hfile := hd.unpoisoned (by simp [hphase])
    cases ok with
    | true => exact .of_file hfile nofun fun _ => rfl
    | false => exact .resolved hfile
  | offered hpeer => exact hd.setPeer (hd.peer_unpoisoned (by rw [hpeer]; rfl))
  | opened _ _ => exact hd
  | peerError hpeer _ => exact hd.peerError hpeer
  | peerHandled hpeer hcall =>
    exact peerHandled_usable hd hpeer hguard (hcall.usable (hd.peer_unpoisoned hpeer))
  | finished hphase => exact .resolved (hd.unpoisoned (by simp [hphase]))
  | relayRequest hrelay => exact relayRequest_usable hd (hd.relay_unpoisoned (by rw [hrelay]; rfl))
  | relayResponse hrelay =>
    have hfile := hd.relay_unpoisoned (by rw [hrelay]; rfl)
    exact hd.setRelay hfile
  | relayChunk hrelay => exact relayChunk_usable hd (hd.relay_unpoisoned (by rw [hrelay]; rfl))
  | relayFlush hrelay _ => exact relayFlush_usable hd (hd.relay_unpoisoned hrelay)
  | relayClose hrelay _ => exact relayClose_usable hd (hd.relay_unpoisoned hrelay)
  | relayRetry hrelay =>
    have hfile := hd.relay_unpoisoned hrelay
    exact hd.setRelay hfile
  | relayFailed hrelay => exact .resolved (hd.relay_unpoisoned hrelay)

theorem spawn_usable (transport : Transport) (fileSize : ℕ) : (spawn transport fileSize).Usable := by
  refine .of_file nofun ?_ fun _ => ?_
  · unfold spawn
    split_ifs
    · exact nofun
    · exact nofun
  · unfold spawn
    split_ifs
    · rfl
    · rfl

theorem resolved_stuck {result : Except Error Unit} (hphase : d.phase = .resolved result)
    (e : Event) : d.step decrypt e = none := by
  cases e with
  | _ => simp [step, hphase, Phase.peer, Phase.relay]

end Download

/-- Nothing is done with a poisoned file: its download has returned the error of the flush. -/
theorem failed_flush_ends_the_download {tr : Trace Event Output}
    (h : (downloadAsync decrypt transport fileSize).Path (Download.FlushSucceeds decrypt)
      (downloadAsync decrypt transport fileSize).init tr d) :
    d.phase ≠ .panicked .invalidState ∧
      (d.state.decryptedFile.state = .poisoned →
        (∃ error, d.phase = .resolved (.error (.io error))) ∧ ∀ e, d.step decrypt e = none) := by
  have husable : d.Usable := h.invariant (Download.spawn_usable transport fileSize)
    fun _ _ _ _ hd hguard hstep => Download.runs_usable hd hguard (Download.step_runs hstep)
  refine ⟨husable.alive, fun hpoisoned => ?_⟩
  obtain ⟨error, hresolved⟩ := husable.poisoned hpoisoned
  exact ⟨⟨error, hresolved⟩, Download.resolved_stuck hresolved⟩

def relayFlushFails : List Event :=
  [.started true, .offered true, .peerFailed, .relayRequest, .relayResponse,
    .relayChunk (List.replicate 28 0), .relayEnd [.ready 0, .error]]

theorem failed_flush_ends_the_download_relayed : ∃ tr d,
    (downloadAsync unframe .both 0).exec (.spawn .both 0) relayFlushFails = some (tr, d) ∧
    d.state.decryptedFile.state = .poisoned ∧ d.phase = .resolved (.error (.io .output)) ∧
    ∀ e, d.step unframe e = none := by
  obtain ⟨tr, d, hexec, hpoisoned, hphase⟩ : ∃ tr d,
      (downloadAsync unframe .both 0).exec (.spawn .both 0) relayFlushFails = some (tr, d) ∧
      d.state.decryptedFile.state = .poisoned ∧ d.phase = .resolved (.error (.io .output)) :=
    ⟨_, _, rfl, rfl, rfl⟩
  have hguard : ∀ e ∈ relayFlushFails, ∀ d : Download, d.FlushSucceeds unframe e := by
    simp only [relayFlushFails, List.forall_mem_cons]
    refine ⟨?_, ?_, ?_, ?_, ?_, ?_, ?_, by simp⟩
    all_goals
      rintro d - file error hpolls
      generalize hpolled : (file, WritePoll.failed error) = polled at hpolls
      rcases hpolls with ⟨hsends, -, -⟩ | ⟨hflush, -⟩
      · cases hsends
      · cases hflush
  have hpath := (EventMachine.exec_path_of (P := fun e => ∀ d : Download, d.FlushSucceeds unframe e)
    _ hexec hguard).imp trivial fun t e _ _ _ he _ => ⟨he t, trivial⟩
  exact ⟨tr, d, hexec, hpoisoned, hphase,
    ((failed_flush_ends_the_download hpath).2 hpoisoned).2⟩

/-- The p2p task's flush fails on the output file, and the relay task that is started over asks the
file for its offset. -/
theorem failed_flush_panics : ∃ tr d,
    (downloadAsync unframe .both 0).exec (.spawn .both 0)
      [.started true, .offered true, .peerOpened none [], .peerMessage (some .hello) none [],
        .peerMessage (some (.dataResponse 0 (List.replicate 28 0))) none [.ready 0, .error],
        .relayRequest] = some (tr, d) ∧
    d.state.decryptedFile.state = .poisoned ∧ d.phase = .panicked .invalidState :=
  ⟨_, _, rfl, rfl, rfl⟩

section FailedFlush

theorem DecryptedFile.pollFlush_pending {f : DecryptedFile} {w : PendingWrite}
    (h : f.pendingWrite = some w) : f.pollFlush decrypt io = f.pollPending decrypt w io := by
  unfold DecryptedFile.pendingWrite at h
  unfold DecryptedFile.pollFlush
  cases hstate : f.state with
  | unwritten data =>
    simp only [hstate] at h
    split_ifs at h with hlen
    obtain rfl := Option.some.inj h
    exact if_neg (not_not_intro hlen)
  | pending w' =>
    simp only [hstate] at h
    rw [Option.some.inj h]
  | complete => simp [hstate] at h
  | poisoned => simp [hstate] at h

theorem DecryptedFile.offset_pending {f : DecryptedFile} {w : PendingWrite}
    (h : f.pendingWrite = some w) : f.offset = some f.fileSize := by
  unfold DecryptedFile.pendingWrite at h
  unfold DecryptedFile.offset
  cases hstate : f.state with
  | unwritten data =>
    simp only [hstate] at h
    split_ifs at h with hlen
    exact congrArg some hlen
  | pending w' => rfl
  | complete => rfl
  | poisoned => simp [hstate] at h

def Handled.Poisons (h : Handled) : Prop :=
  h.state.decryptedFile.state = .poisoned ∧ ∃ error, h.result = .failed (.io error)

theorem finish_poisons {w : PendingWrite} {file : OutputFile} {error : IoError}
    (hw : s.decryptedFile.pendingWrite = some w)
    (hpoll : w.poll decrypt s.decryptedFile.file io = (file, .failed error)) :
    (s.finish decrypt sends io).Poisons := by
  have hflush : s.decryptedFile.pollFlush decrypt io =
      ({ s.decryptedFile with state := .poisoned, file := file }, .failed error) := by
    rw [DecryptedFile.pollFlush_pending hw]
    unfold DecryptedFile.pollPending
    rw [hpoll]
  unfold DownloadState.finish
  rw [hflush]
  exact ⟨rfl, error, rfl⟩

theorem requestDataOrFinish_poisons {w : PendingWrite} {file : OutputFile} {error : IoError}
    (htotal : s.totalLen = s.decryptedFile.fileSize)
    (hw : s.decryptedFile.pendingWrite = some w)
    (hpoll : w.poll decrypt s.decryptedFile.file io = (file, .failed error)) :
    (s.requestDataOrFinish decrypt sends io).Poisons := by
  unfold DownloadState.requestDataOrFinish
  simp only [DecryptedFile.offset_pending hw, htotal, Nat.lt_irrefl, if_false]
  exact finish_poisons hw hpoll

theorem dataResponse_poisons {stored : DecryptedFile} {outputs : List Output} {w : PendingWrite}
    {file : OutputFile} {error : IoError} {offset : ℕ} {data : List UInt8}
    (hst : Stored d (.peerMessage (some (.dataResponse offset data)) sends io) stored outputs)
    (htotal : d.state.totalLen = d.state.decryptedFile.fileSize)
    (hw : stored.pendingWrite = some w)
    (hpoll : w.poll decrypt stored.file io = (file, .failed error)) :
    (d.state.handleUploaderMessage decrypt sends io (.dataResponse offset data)).Poisons := by
  have hpoisons : (DownloadState.requestDataOrFinish decrypt
      { d.state with decryptedFile := stored } sends io).Poisons :=
    requestDataOrFinish_poisons (htotal.trans hst.fileSize.symm) hw hpoll
  simp only [DownloadState.handleUploaderMessage]
  cases hst with
  | nothing hacc =>
    have hoffset := DecryptedFile.offset_pending hw
    have hne : d.state.decryptedFile.fileSize ≠ offset := by
      rintro rfl
      simp [Download.accepts, Download.offset, hoffset] at hacc
    simp only [hoffset, if_neg hne]
    exact hpoisons
  | @response received data' _ hoff hacc hwrite =>
    have hsame : received = offset ∧ data' = data := by
      simp only [Download.accepts] at hacc
      split_ifs at hacc with heq
      exact ⟨Option.some.inj (hoff.symm.trans heq), (Option.some.inj hacc).symm⟩
    obtain ⟨rfl, rfl⟩ := hsame
    have hoffset : d.state.decryptedFile.offset = some received := hoff
    simp only [hoffset, if_true, hwrite]
    exact hpoisons

theorem PeerCall.poisons {h : Handled} {file : OutputFile} {error : IoError}
    (hcall : PeerCall decrypt d e h) (htotal : d.state.totalLen = d.state.decryptedFile.fileSize)
    (hpolls : PeerPolls decrypt d e (file, .failed error)) : h.Poisons := by
  generalize hpolled : (file, WritePoll.failed error) = polled at hpolls
  cases hpolls with
  | requesting hsends hst hw =>
    cases hcall with
    | opened _ =>
      cases hst with
      | nothing hacc => exact requestDataOrFinish_poisons htotal hw hpolled.symm
      | response hoff hacc hwrite => cases hacc
    | @connecting message sends io hconnects =>
      cases message with
      | none => cases hsends
      | some message =>
        cases message with
        | hello | unknown =>
          cases hst with
          | nothing hacc => exact requestDataOrFinish_poisons htotal hw hpolled.symm
          | response hoff hacc hwrite => cases hacc
        | dataResponse offset data =>
          rw [connectMessage_dataResponse]
          exact dataResponse_poisons hst htotal hw hpolled.symm
    | @transferring message sends io hconnects =>
      cases message with
      | none => cases hsends
      | some message =>
        cases message with
        | hello | unknown => simp [Download.requestSends, hconnects] at hsends
        | dataResponse offset data => exact dataResponse_poisons hst htotal hw hpolled.symm
    | flushed _ => cases hsends
  | flushing he hw =>
    subst he
    cases hcall with
    | flushed _ => exact finish_poisons hw hpolled.symm

namespace Download

theorem peerError_unresolved {error : Error} (hpeer : d.phase.peer.isSome = true)
    (hboth : d.transport = .both) (result : Except Error Unit) :
    (d.peerError error).phase ≠ .resolved result := by
  have hfallBack : (d.fallBack error).phase ≠ .resolved result := by
    unfold fallBack
    rw [hboth]
    exact nofun
  have hagain : ∀ before, (d.transferAgain before).phase ≠ .resolved result := by
    intro before
    unfold transferAgain
    split
    · exact nofun
    · split_ifs
      · exact nofun
      · exact nofun
  unfold peerError
  cases h : d.phase with
  | connecting peer => exact hfallBack
  | transferring peer before =>
    cases before with
    | none => exact hfallBack
    | some before => exact hagain before
  | fallback peer relay => exact nofun
  | finishing before => simp [h, Phase.peer] at hpeer
  | starting => simp [h, Phase.peer] at hpeer
  | continuing relay => simp [h, Phase.peer] at hpeer
  | relaying relay => simp [h, Phase.peer] at hpeer
  | resolved result => simp [h, Phase.peer] at hpeer
  | panicked panic => simp [h, Phase.peer] at hpeer

theorem peerHandled_poisons {h : Handled} (hpeer : d.phase.peer.isSome = true)
    (hboth : d.transport = .both) (hh : h.Poisons) :
    (d.peerHandled h).1.state.decryptedFile.state = .poisoned ∧
      ∀ result, (d.peerHandled h).1.phase ≠ .resolved result := by
  obtain ⟨hpoisoned, error, hresult⟩ := hh
  unfold peerHandled
  rw [hresult]
  refine ⟨?_, peerError_unresolved (d := { d with state := h.state }) hpeer hboth⟩
  obtain ⟨phase, hphase, -⟩ :=
    peerError_phase (d := { d with state := h.state }) (.io error) (.inl hpeer)
  simp only [hphase]
  exact hpoisoned

theorem polls_handled {next : Download × List Output} {polled : OutputFile × WritePoll}
    (hstep : d.step decrypt e = some next) (hpolls : PeerPolls decrypt d e polled) :
    ∃ h, d.phase.peer.isSome = true ∧ PeerCall decrypt d e h ∧ next = d.peerHandled h := by
  cases hpolls with
  | flushing he hw =>
    subst he
    simp only [step] at hstep
    split_ifs at hstep with hpeer
    exact ⟨_, by rw [hpeer]; rfl, .flushed hpeer, (Option.some.inj hstep).symm⟩
  | requesting hsends hst hw =>
    have hbusy : ¬d.Idle e := by
      intro hidle
      cases hsends.symm.trans hidle.2
    have hruns : Runs decrypt d e next := step_runs hstep
    cases hruns with
    | peerHandled hpeer hcall => exact ⟨_, hpeer, hcall, rfl⟩
    | opened _ hconnects => simp [requestSends, hconnects] at hsends
    | peerError _ hidle => exact absurd hidle hbusy
    | relayFlush _ hidle => exact absurd (hidle d) hbusy
    | relayClose _ hidle => exact absurd (hidle d) hbusy
    | _ => cases hsends

end Download

/-- A poll of the p2p task that fails leaves the download in use with a poisoned file, when it has
a relay to fall back on. -/
theorem failed_poll_goes_on {tr : Trace Event Output} {next : Download × List Output}
    (hrun : (downloadAsync decrypt transport fileSize).Run tr d)
    (hstep : d.step decrypt e = some next) (hguard : ¬d.FlushSucceeds decrypt e) :
    next.1.state.decryptedFile.state = .poisoned ∧
      ∀ result, next.1.phase ≠ .resolved result := by
  unfold Download.FlushSucceeds at hguard
  push Not at hguard
  obtain ⟨hboth, file, error, hpolls⟩ := hguard
  obtain ⟨h, hpeer, hcall, rfl⟩ := Download.polls_handled hstep hpolls
  exact Download.peerHandled_poisons hpeer hboth (hcall.poisons (run_total hrun) hpolls)

end FailedFlush

end Glopfile.Client

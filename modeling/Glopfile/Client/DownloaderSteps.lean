import Glopfile.Client.RequestLoop

/-!
# What each step of a download does

`Handles` lists what a handler call of the p2p task can do, `Phase.AfterAwait` where the
download goes on from it, and `Change` the steps of the download. Proofs about runs are case
analyses of a change.
-/

namespace Glopfile.Client

open EventMachine (Trace)

inductive Phase.AfterError (phase : Phase) (offset : Option ℕ) (error : Error) : Phase → Prop
  | fallback : AfterError phase offset error (.fallback .offering .idle)
  | relaying : AfterError phase offset error (.relaying .idle)
  | resolved : AfterError phase offset error (.resolved (.error error))
  | panicked : offset = none → AfterError phase offset error (.panicked .invalidState)
  | continuing {peer : PeerTask} {relay : RelayTask} :
      phase = .fallback peer relay → AfterError phase offset error (.continuing relay)

inductive Phase.AfterAwait (phase : Phase) (offset : Option ℕ) :
    Await → Phase → List Output → Prop
  | connected {before : Option ℕ} : phase.connects = true →
      AfterAwait phase offset (.returned .continues) (.transferring .receiving before) []
  | poisoned : phase.connects = true → offset = none →
      AfterAwait phase offset (.returned .continues) (.panicked .invalidState) []
  | ended : phase.connects = true →
      AfterAwait phase offset (.returned .breaks) (.resolved (.ok ())) []
  | received {peer : PeerTask} {before : Option ℕ} : phase = .transferring peer before →
      AfterAwait phase offset (.returned .continues) (.transferring .receiving before) []
  | transferred {peer : PeerTask} {before : Option ℕ} : phase = .transferring peer before →
      AfterAwait phase offset (.returned .breaks) (.finishing before) [.finishDownload]
  | failed {error : Error} {next : Phase} : phase.AfterError offset error next →
      AfterAwait phase offset (.failed error) next []
  | flushing : phase.peer.isSome = true →
      AfterAwait phase offset .flushing (phase.setPeer .flushing) []
  | panicked {panic : Panic} : AfterAwait phase offset (.panicked panic) (.panicked panic) []

namespace Download

def accepts (d : Download) : Event → Option (List UInt8)
  | .peerMessage (some (.dataResponse offset data)) _ _ =>
    if d.offset = some offset then some data else none
  | _ => none

def brings (d : Download) : Event → List UInt8
  | .relayChunk data => data
  | e => (d.accepts e).getD []

def requestSends (d : Download) : Event → Option (Option ℕ)
  | .peerOpened sends _ => if d.phase.connects then none else some sends
  | .peerMessage (some (.dataResponse _ _)) sends _ => some sends
  | .peerMessage (some .hello) sends _ | .peerMessage (some .unknown) sends _ =>
    if d.phase.connects then some sends else none
  | _ => none

def Idle (d : Download) (e : Event) : Prop := d.brings e = [] ∧ d.requestSends e = none

end Download

inductive Stored (d : Download) (e : Event) : DecryptedFile → List Output → Prop
  | nothing : d.accepts e = none → Stored d e d.state.decryptedFile []
  | response {offset : ℕ} {data : List UInt8} {file : DecryptedFile} :
      d.offset = some offset → d.accepts e = some data →
      d.state.decryptedFile.writeAll data = (file, some (.ok ())) →
      Stored d e file [.stored data, .progress (offset + data.length) d.state.totalLen]

inductive Handles (decrypt : List UInt8 → Option (List UInt8)) (d : Download) :
    Event → Handled → Prop
  | ignored {e : Event} {sends : Option ℕ} : d.phase.connects = false → d.Idle e →
      Handles decrypt d e ⟨d.state, sends, [], .returned .continues⟩
  | refused {e : Event} {sends : Option ℕ} {error : Error} :
      d.Idle e ∨ d.state.decryptedFile.started = true →
      Handles decrypt d e ⟨d.state, sends, [], .failed error⟩
  | poisoned {e : Event} {sends : Option ℕ} : d.offset = none →
      Handles decrypt d e ⟨d.state, sends, [], .panicked .invalidState⟩
  | requests {e : Event} {sends : Option ℕ} {file : DecryptedFile} {outputs : List Output}
      {received : ℕ} : d.requestSends e = some sends → Stored d e file outputs →
      file.offset = some received → received < d.state.totalLen →
      Handles decrypt d e ((DownloadState.requestData received
        (d.state.totalLen - d.state.requestedOffset + 1)
        { d.state with decryptedFile := file } sends).after outputs)
  | finishes {e : Event} {sends : Option ℕ} {io : List IoResult} {file : DecryptedFile}
      {outputs : List Output} {received : ℕ} :
      d.requestSends e = some sends → Stored d e file outputs →
      file.offset = some received → d.state.totalLen ≤ received →
      Handles decrypt d e
        ((DownloadState.finish decrypt { d.state with decryptedFile := file } sends io).after
          outputs)
  | flushed {sends : Option ℕ} {io : List IoResult} : d.phase.peer = some .flushing →
      Handles decrypt d (.peerFlush sends io) (d.state.finish decrypt sends io)

structure Flushed (decrypt : List UInt8 → Option (List UInt8)) (f g : DecryptedFile) : Prop where
  size : g.fileSize = f.fileSize
  stores : ∀ received, f.Stores decrypt received → g.Stores decrypt received
  started : g = f ∨ g.started = true

inductive Change (decrypt : List UInt8 → Option (List UInt8)) (d : Download) :
    Event → Download → List Output → Prop
  | started {ok : Bool} : d.phase = .starting →
      Change decrypt d (.started ok)
        (d.setPhase (if ok then .connecting .offering else .resolved (.error .connect))) []
  | offered : d.phase.peer = some .offering →
      Change decrypt d (.offered true) (d.setPhase (d.phase.setPeer .receiving)) []
  | opened {sends : Option ℕ} {io : List IoResult} : d.phase.peer = some .receiving →
      d.phase.connects = true → Change decrypt d (.peerOpened sends io) d [.sent .hello]
  | peerError {e : Event} {error : Error} {phase : Phase} :
      d.phase.AfterError d.offset error phase → d.Idle e →
      Change decrypt d e (d.setPhase phase) []
  | handled {e : Event} {h : Handled} {phase : Phase} {outputs : List Output} :
      Handles decrypt d e h →
      d.phase.AfterAwait h.state.decryptedFile.offset h.result phase outputs →
      Change decrypt d e { d with state := h.state, phase := phase } (h.outputs ++ outputs)
  | finished {before : Option ℕ} : d.phase = .finishing before →
      Change decrypt d (.finished true) (d.setPhase (.resolved (.ok ()))) []
  | relayRequest {offset : ℕ} : d.phase.relay = some .idle → d.offset = some offset →
      Change decrypt d .relayRequest (d.setPhase (d.phase.setRelay (.requesting offset)))
        [.getContent offset]
  | relayResponse {offset : ℕ} : d.phase.relay = some (.requesting offset) →
      Change decrypt d .relayResponse (d.setPhase (d.phase.setRelay (.streaming offset 0))) []
  | relayRetry : d.phase.relay.isSome = true →
      Change decrypt d (.relayFailed true) (d.setPhase (d.phase.setRelay .idle)) []
  | relayStored {offset downloaded : ℕ} {data : List UInt8} {file : DecryptedFile} :
      d.phase.relay = some (.streaming offset downloaded) →
      d.state.decryptedFile.writeAll data = (file, some (.ok ())) →
      Change decrypt d (.relayChunk data)
        ((d.setFile file).setPhase
          (d.phase.setRelay (.streaming offset (downloaded + data.length))))
        [.progress (offset + (downloaded + data.length)) d.contentSize, .stored data]
  | relayPolled {e : Event} {file : DecryptedFile} {task : RelayTask} :
      d.Idle e → task = .flushing ∨ task = .closing → d.phase.relay.isSome = true →
      Flushed decrypt d.state.decryptedFile file → file.started = true →
      Change decrypt d e ((d.setFile file).setPhase (d.phase.setRelay task)) []
  | relayClosed {e : Event} {file : DecryptedFile} : d.Idle e →
      Flushed decrypt d.state.decryptedFile file → file.state = .complete →
      Change decrypt d e ((d.setFile file).setPhase (.resolved (.ok ()))) []
  | relayError {e : Event} {file : DecryptedFile} {error : Error} {outputs : List Output} :
      d.Idle e ∨ d.state.decryptedFile.started = true →
      Flushed decrypt d.state.decryptedFile file →
      (∀ o ∈ outputs, ∃ current total, o = .progress current total) →
      Change decrypt d e ((d.setFile file).setPhase (.resolved (.error error))) outputs
  | relayPanicked {e : Event} {file : DecryptedFile} {outputs : List Output} :
      d.Idle e ∨ d.state.decryptedFile.started = true →
      Flushed decrypt d.state.decryptedFile file → file.offset = none →
      (∀ o ∈ outputs, ∃ current total, o = .progress current total) →
      Change decrypt d e ((d.setFile file).setPhase (.panicked .invalidState)) outputs

variable {decrypt : List UInt8 → Option (List UInt8)} {d d' : Download} {e : Event}
  {os : List Output}

@[simp] theorem Download.setPhase_phase (phase : Phase) : (d.setPhase phase).phase = phase := rfl

@[simp] theorem Download.setPhase_state (phase : Phase) : (d.setPhase phase).state = d.state := rfl

@[simp] theorem Download.setFile_file (file : DecryptedFile) :
    (d.setFile file).state.decryptedFile = file := rfl

section File
variable {f g h : DecryptedFile} {io : List IoResult} {result : FlushPoll}

theorem Flushed.refl : Flushed decrypt f f := ⟨rfl, fun _ hs => hs, .inl rfl⟩

theorem Flushed.trans (hfg : Flushed decrypt f g) (hgh : Flushed decrypt g h) :
    Flushed decrypt f h := by
  refine ⟨hgh.size.trans hfg.size, fun r hs => hgh.stores r (hfg.stores r hs), ?_⟩
  rcases hgh.started with rfl | hst
  · exact hfg.started
  · exact .inr hst

theorem pollFlush_flushed (hpoll : f.pollFlush decrypt io = (g, result)) : Flushed decrypt f g where
  size := DecryptedFile.pollFlush_fileSize hpoll
  stores _ := DecryptedFile.pollFlush_stores hpoll
  started := (DecryptedFile.pollFlush_started hpoll).symm

theorem offset_poisoned : f.offset = none ↔ f.state = .poisoned := by
  unfold DecryptedFile.offset
  cases f.state with
  | unwritten data => simp
  | pending w => simp
  | complete => simp
  | poisoned => simp

theorem offset_started {n : ℕ} (hst : f.started = true) (hn : f.offset = some n) :
    n = f.fileSize := by
  unfold DecryptedFile.started at hst
  unfold DecryptedFile.offset at hn
  cases hstate : f.state with
  | unwritten data => simp [hstate] at hst
  | pending w => simpa [hstate] using hn.symm
  | complete => simpa [hstate] using hn.symm
  | poisoned => simp [hstate] at hn

theorem pollClose_cases (hpoll : f.pollClose decrypt io = (g, result)) :
    Flushed decrypt f g ∧
      match result with
      | .pending => g.started = true
      | .ready => g.state = .complete
      | .failed _ => True
      | .panicked => g.offset = none := by
  obtain ⟨flushed, hflush, ⟨rfl, hg⟩ | ⟨rfl, -⟩ | ⟨rfl, hne⟩⟩ :=
    DecryptedFile.pollClose_cases hpoll
  · exact ⟨pollFlush_flushed hflush, hg⟩
  · exact ⟨pollFlush_flushed hflush, trivial⟩
  · refine ⟨pollFlush_flushed hflush, ?_⟩
    have hresult := DecryptedFile.pollFlush_result hflush
    cases result with
    | pending => exact hresult.1
    | ready => exact absurd rfl hne
    | failed error => trivial
    | panicked =>
      obtain ⟨rfl, hstate⟩ := hresult
      exact offset_poisoned.mpr hstate

end File

section Peer
variable {file : DecryptedFile} {outputs : List Output} {sends : Option ℕ} {io : List IoResult}

theorem Stored.offset (h : Stored d e file outputs) :
    file.offset = d.offset.map (· + ((d.accepts e).getD []).length) := by
  cases h with
  | nothing hacc =>
    simp only [hacc, Option.getD_none, List.length_nil, Nat.add_zero, Option.map_id']
    rfl
  | @response offset data _ hoff hacc hwrite =>
    rw [hacc]
    rcases DecryptedFile.writeAll_ok hwrite with ⟨rfl, rfl⟩ | ⟨buffer, hstate, rfl⟩
    · simp only [Option.getD_some, List.length_nil, Nat.add_zero, Option.map_id']
      rfl
    · have hbuffer : d.offset = some buffer.length := DecryptedFile.offset_unwritten hstate
      rw [hbuffer, DecryptedFile.offset_unwritten rfl]
      simp only [Option.getD_some, Option.map_some, List.length_append]

theorem Stored.fileSize (h : Stored d e file outputs) :
    file.fileSize = d.state.decryptedFile.fileSize := by
  cases h with
  | nothing hacc => rfl
  | response hoff hacc hwrite =>
    rcases DecryptedFile.writeAll_ok hwrite with ⟨rfl, _⟩ | ⟨_, _, rfl⟩
    · rfl
    · rfl

theorem Download.accepts_eq_some {data : List UInt8} (h : d.accepts e = some data) :
    ∃ offset sends io, e = .peerMessage (some (.dataResponse offset data)) sends io ∧
      d.offset = some offset := by
  unfold Download.accepts at h
  split at h
  · rename_i offset data' sends io
    split_ifs at h with hoff
    obtain rfl := Option.some.inj h
    exact ⟨offset, sends, io, rfl, hoff⟩
  · cases h

theorem Download.brings_eq (hsends : d.requestSends e = some sends) :
    d.brings e = (d.accepts e).getD [] := by
  cases e with
  | relayChunk data => cases hsends
  | _ => rfl

theorem requestDataOrFinish_handles (hsends : d.requestSends e = some sends)
    (hst : Stored d e file outputs) :
    Handles decrypt d e
      ((DownloadState.requestDataOrFinish decrypt { d.state with decryptedFile := file }
        sends io).after outputs) := by
  have hoffset := hst.offset
  unfold DownloadState.requestDataOrFinish
  cases hfile : file.offset with
  | none =>
    cases hst with
    | nothing hacc => exact .poisoned hfile
    | response hoff hacc hwrite =>
      rw [hfile, hoff] at hoffset
      cases hoffset
  | some received =>
    simp only
    by_cases hlt : received < d.state.totalLen
    · rw [if_pos hlt]
      exact .requests hsends hst hfile hlt
    · rw [if_neg hlt]
      exact .finishes hsends hst hfile (Nat.not_lt.mp hlt)

theorem finish_cases (decrypt : List UInt8 → Option (List UInt8)) (s : DownloadState)
    (sends : Option ℕ) (io : List IoResult) :
    ∃ g polled, s.decryptedFile.pollFlush decrypt io = (g, polled) ∧
      (s.finish decrypt sends io).state = { s with decryptedFile := g } ∧
      ((polled = .pending ∧ (s.finish decrypt sends io).result = .flushing ∧
          (s.finish decrypt sends io).outputs = []) ∨
        (∃ error, polled = .failed error ∧
          (s.finish decrypt sends io).result = .failed (.io error) ∧
          (s.finish decrypt sends io).outputs = []) ∨
        (polled = .panicked ∧ (s.finish decrypt sends io).result = .panicked .invalidState ∧
          (s.finish decrypt sends io).outputs = []) ∨
        (polled = .ready ∧ (s.finish decrypt sends io).result = .failed .send ∧
          (s.finish decrypt sends io).outputs = []) ∨
        (polled = .ready ∧ (s.finish decrypt sends io).result = .returned .breaks ∧
          (s.finish decrypt sends io).outputs = [.sent .transferFinished])) := by
  unfold DownloadState.finish
  generalize s.decryptedFile.pollFlush decrypt io = flushed
  obtain ⟨g, polled⟩ := flushed
  refine ⟨g, polled, rfl, ?_⟩
  cases polled with
  | pending => exact ⟨rfl, .inl ⟨rfl, rfl, rfl⟩⟩
  | failed error => exact ⟨rfl, .inr (.inl ⟨error, rfl, rfl, rfl⟩)⟩
  | panicked => exact ⟨rfl, .inr (.inr (.inl ⟨rfl, rfl, rfl⟩))⟩
  | ready =>
    cases hsend : trySend sends with
    | none => exact ⟨rfl, .inr (.inr (.inr (.inl ⟨rfl, rfl, rfl⟩)))⟩
    | some rest => exact ⟨rfl, .inr (.inr (.inr (.inr ⟨rfl, rfl, rfl⟩)))⟩

theorem finish_not_continues (s : DownloadState) (sends : Option ℕ) (io : List IoResult) :
    (s.finish decrypt sends io).result ≠ .returned .continues := by
  obtain ⟨_, _, _, _, ⟨_, h, _⟩ | ⟨_, _, h, _⟩ | ⟨_, h, _⟩ | ⟨_, h, _⟩ | ⟨_, h, _⟩⟩ :=
    finish_cases decrypt s sends io
  all_goals simp [h]

/-- The connect handler runs `request_data_or_finish` twice for a response; the second run
finds nothing left to do. -/
theorem requestDataOrFinish_again (s : DownloadState) (sends : Option ℕ) (io : List IoResult)
    (outputs : List Output) :
    ((s.requestDataOrFinish decrypt sends io).after outputs).andThen
        (fun s sends => s.requestDataOrFinish decrypt sends io) =
      (s.requestDataOrFinish decrypt sends io).after outputs := by
  generalize hh : s.requestDataOrFinish decrypt sends io = h
  by_cases hresult : h.result = .returned .continues
  · have hagain : h.state.requestDataOrFinish decrypt h.sends io =
        ⟨h.state, h.sends, [], .returned .continues⟩ := by
      unfold DownloadState.requestDataOrFinish at hh
      cases hoff : s.decryptedFile.offset with
      | none =>
        simp only [hoff] at hh
        subst hh
        cases hresult
      | some received =>
        simp only [hoff] at hh
        by_cases hlt : received < s.totalLen
        · rw [if_pos hlt] at hh
          by_cases hle : received ≤ s.requestedOffset
          · obtain ⟨hstate, hend⟩ := DownloadState.requestData_reach sends hle
              (Nat.lt_succ_self (s.totalLen - s.requestedOffset))
            rw [hh] at hstate hend
            have hmax : reach s.totalLen received s.requestedOffset sends =
                max s.requestedOffset (windowEnd s.totalLen received) := by
              by_contra hne
              rw [if_neg hne, hresult] at hend
              cases hend
            rw [hmax] at hstate
            unfold DownloadState.requestDataOrFinish
            simp only [hstate, hoff, if_pos hlt]
            rw [DownloadState.requestData_idle]
            · exact Nat.le_trans hle (Nat.le_max_left _ _)
            · exact Nat.le_max_right _ _
          · rw [DownloadState.requestData_overrun (Nat.not_le.mp hle)] at hh
            subst hh
            cases hresult
        · rw [if_neg hlt] at hh
          exact absurd (hh ▸ hresult) (finish_not_continues s sends io)
    simp only [Handled.andThen, Handled.after, hresult, hagain, List.append_nil]
  · simp only [Handled.andThen, Handled.after]

theorem connectMessage_dataResponse (s : DownloadState) (sends : Option ℕ) (io : List IoResult)
    (offset : ℕ) (data : List UInt8) :
    s.connectMessage decrypt (some (.dataResponse offset data)) sends io =
      s.handleUploaderMessage decrypt sends io (.dataResponse offset data) := by
  unfold DownloadState.connectMessage DownloadState.dataChannelMessage
  simp only [DownloadState.handleUploaderMessage]
  cases hoff : s.decryptedFile.offset with
  | none => rfl
  | some received =>
    simp only
    by_cases heq : received = offset
    · simp only [if_pos heq]
      generalize s.decryptedFile.writeAll data = written
      obtain ⟨file, _ | ⟨error⟩ | ⟨⟨⟩⟩⟩ := written
      · rfl
      · rfl
      · exact requestDataOrFinish_again _ _ _ _
    · simp only [if_neg heq]
      exact requestDataOrFinish_again s sends io []

theorem dataResponse_handles {offset : ℕ} {data : List UInt8} :
    Handles decrypt d (.peerMessage (some (.dataResponse offset data)) sends io)
      (d.state.handleUploaderMessage decrypt sends io (.dataResponse offset data)) := by
  simp only [DownloadState.handleUploaderMessage]
  cases hoff : d.state.decryptedFile.offset with
  | none => exact .poisoned hoff
  | some received =>
    simp only
    by_cases heq : received = offset
    · subst heq
      have hacc : d.accepts (.peerMessage (some (.dataResponse received data)) sends io) =
          some data := if_pos hoff
      simp only [if_true]
      cases hwrite : d.state.decryptedFile.writeAll data with
      | mk file result =>
        cases result with
        | none =>
          obtain ⟨_, _, _, hpoisoned⟩ := DecryptedFile.writeAll_refused hwrite (by simp)
          rw [offset_poisoned.mpr (hpoisoned rfl)] at hoff
          cases hoff
        | some result =>
          cases result with
          | error error =>
            obtain ⟨_, _, hst, _⟩ := DecryptedFile.writeAll_refused hwrite (by simp)
            exact .refused (.inr hst)
          | ok value => exact requestDataOrFinish_handles rfl (.response hoff hacc hwrite)
    · simp only [if_neg heq]
      have hst : Stored d (.peerMessage (some (.dataResponse offset data)) sends io)
          d.state.decryptedFile [] :=
        .nothing (if_neg fun hsame => heq (Option.some.inj (hoff.symm.trans hsame)))
      exact requestDataOrFinish_handles rfl hst

theorem handleUploaderMessage_handles (hconnects : d.phase.connects = false)
    (message : UploaderMessage) :
    Handles decrypt d (.peerMessage (some message) sends io)
      (d.state.handleUploaderMessage decrypt sends io message) := by
  cases message with
  | hello => exact .ignored hconnects ⟨rfl, by simp [Download.requestSends, hconnects]⟩
  | unknown => exact .ignored hconnects ⟨rfl, by simp [Download.requestSends, hconnects]⟩
  | dataResponse offset data => exact dataResponse_handles

theorem connectMessage_handles (hconnects : d.phase.connects = true)
    (message : Option UploaderMessage) :
    Handles decrypt d (.peerMessage message sends io)
      (d.state.connectMessage decrypt message sends io) := by
  cases message with
  | none => exact .refused (.inl ⟨rfl, rfl⟩)
  | some message =>
    cases message with
    | hello =>
      have hsends : d.requestSends (.peerMessage (some .hello) sends io) = some sends :=
        if_pos hconnects
      exact requestDataOrFinish_handles hsends (.nothing rfl)
    | unknown =>
      have hsends : d.requestSends (.peerMessage (some .unknown) sends io) = some sends :=
        if_pos hconnects
      exact requestDataOrFinish_handles hsends (.nothing rfl)
    | dataResponse offset data =>
      rw [connectMessage_dataResponse]
      exact dataResponse_handles

end Peer

section Phases

theorem Download.transferAgain_phase (before : ℕ) (error : Error) :
    ∃ phase, d.transferAgain before = d.setPhase phase ∧
      d.phase.AfterError d.offset error phase := by
  unfold Download.transferAgain
  cases hoff : d.offset with
  | none => exact ⟨_, rfl, .panicked rfl⟩
  | some offset =>
    by_cases heq : offset = before
    · exact ⟨_, if_pos heq, .relaying⟩
    · exact ⟨_, if_neg heq, .fallback⟩

theorem Download.fallBack_phase (error : Error) :
    ∃ phase, d.fallBack error = d.setPhase phase ∧ d.phase.AfterError d.offset error phase := by
  unfold Download.fallBack
  cases d.transport with
  | both => exact ⟨_, rfl, .fallback⟩
  | p2p => exact ⟨_, rfl, .resolved⟩
  | relay => exact ⟨_, rfl, .resolved⟩

theorem Download.peerError_phase (error : Error)
    (h : d.phase.peer.isSome = true ∨ ∃ before, d.phase = .finishing before) :
    ∃ phase, d.peerError error = d.setPhase phase ∧ d.phase.AfterError d.offset error phase := by
  unfold Download.peerError
  cases hphase : d.phase with
  | connecting peer => simpa only [hphase] using d.fallBack_phase error
  | transferring peer before =>
    cases before with
    | none => simpa only [hphase] using d.fallBack_phase error
    | some before => simpa only [hphase] using d.transferAgain_phase before error
  | finishing before =>
    cases before with
    | none => simpa only [hphase] using d.fallBack_phase error
    | some before => simpa only [hphase] using d.transferAgain_phase before error
  | fallback peer relay => exact ⟨_, rfl, .continuing rfl⟩
  | starting => simp [hphase, Phase.peer] at h
  | continuing relay => simp [hphase, Phase.peer] at h
  | relaying relay => simp [hphase, Phase.peer] at h
  | resolved result => simp [hphase, Phase.peer] at h
  | panicked panic => simp [hphase, Phase.peer] at h

theorem Download.peerReturned_phase (flow : ControlFlow) (h : d.phase.peer.isSome = true) :
    ∃ phase outputs, d.peerReturned flow = (d.setPhase phase, outputs) ∧
      d.phase.AfterAwait d.offset (.returned flow) phase outputs := by
  unfold Download.peerReturned
  cases hphase : d.phase with
  | connecting peer =>
    cases flow with
    | continues => exact ⟨_, _, rfl, .connected rfl⟩
    | breaks => exact ⟨_, _, rfl, .ended rfl⟩
  | fallback peer relay =>
    cases flow with
    | continues =>
      cases hoff : d.offset with
      | none => exact ⟨_, _, rfl, .poisoned rfl rfl⟩
      | some offset => exact ⟨_, _, rfl, .connected rfl⟩
    | breaks => exact ⟨_, _, rfl, .ended rfl⟩
  | transferring peer before =>
    cases flow with
    | continues => exact ⟨_, _, rfl, .received rfl⟩
    | breaks => exact ⟨_, _, rfl, .transferred rfl⟩
  | starting => simp [hphase, Phase.peer] at h
  | finishing before => simp [hphase, Phase.peer] at h
  | continuing relay => simp [hphase, Phase.peer] at h
  | relaying relay => simp [hphase, Phase.peer] at h
  | resolved result => simp [hphase, Phase.peer] at h
  | panicked panic => simp [hphase, Phase.peer] at h

theorem Download.peerHandled_change {h : Handled} (hh : Handles decrypt d e h)
    (hpeer : d.phase.peer.isSome = true) (heq : d.peerHandled h = (d', os)) :
    Change decrypt d e d' os := by
  unfold Download.peerHandled at heq
  cases hresult : h.result with
  | returned flow =>
    obtain ⟨phase, outputs, hret, hafter⟩ :=
      Download.peerReturned_phase (d := { d with state := h.state }) flow hpeer
    simp only [hresult, hret] at heq
    obtain ⟨rfl, rfl⟩ := Prod.mk.inj heq
    rw [← hresult] at hafter
    exact .handled hh hafter
  | failed error =>
    obtain ⟨phase, herr, hafter⟩ :=
      Download.peerError_phase (d := { d with state := h.state }) error (.inl hpeer)
    simp only [hresult, herr] at heq
    obtain ⟨rfl, rfl⟩ := Prod.mk.inj heq
    rw [← h.outputs.append_nil]
    refine .handled hh ?_
    rw [hresult]
    exact .failed hafter
  | flushing =>
    simp only [hresult] at heq
    obtain ⟨rfl, rfl⟩ := Prod.mk.inj heq
    rw [← h.outputs.append_nil]
    refine .handled hh ?_
    rw [hresult]
    exact .flushing hpeer
  | panicked panic =>
    simp only [hresult] at heq
    obtain ⟨rfl, rfl⟩ := Prod.mk.inj heq
    rw [← h.outputs.append_nil]
    refine .handled hh ?_
    rw [hresult]
    exact .panicked

end Phases

section Relay
variable {io : List IoResult}

theorem Download.relayChunk_change {offset downloaded : ℕ} {data : List UInt8}
    (hrelay : d.phase.relay = some (.streaming offset downloaded))
    (heq : d.relayChunk offset downloaded data = (d', os)) :
    Change decrypt d (.relayChunk data) d' os := by
  unfold Download.relayChunk at heq
  cases hwrite : d.state.decryptedFile.writeAll data with
  | mk file result =>
    simp only [hwrite] at heq
    cases result with
    | none =>
      obtain ⟨_, _, hst, hpoisoned⟩ := DecryptedFile.writeAll_refused hwrite (by simp)
      obtain ⟨rfl, rfl⟩ := Prod.mk.inj heq
      exact .relayPanicked (.inr hst) .refl (offset_poisoned.mpr (hpoisoned rfl)) (by simp)
    | some result =>
      cases result with
      | error error =>
        obtain ⟨_, _, hst, _⟩ := DecryptedFile.writeAll_refused hwrite (by simp)
        obtain ⟨rfl, rfl⟩ := Prod.mk.inj heq
        exact .relayError (.inr hst) .refl (by simp)
      | ok value =>
        obtain ⟨rfl, rfl⟩ := Prod.mk.inj heq
        exact .relayStored hrelay hwrite

theorem Download.relayClose_change (hidle : ∀ d : Download, d.Idle e)
    (hrelay : d.phase.relay.isSome = true)
    {f : DecryptedFile} (hflushed : Flushed decrypt f d.state.decryptedFile) :
    Change decrypt (d.setFile f) e (d.relayClose decrypt io) [] := by
  unfold Download.relayClose
  cases hclose : d.state.decryptedFile.pollClose decrypt io with
  | mk file result =>
    obtain ⟨hfile, hresult⟩ := pollClose_cases hclose
    have hboth : Flushed decrypt (d.setFile f).state.decryptedFile file := hflushed.trans hfile
    cases result with
    | pending => exact .relayPolled (hidle _) (.inr rfl) hrelay hboth hresult
    | ready => exact .relayClosed (hidle _) hboth hresult
    | failed error => exact .relayError (.inl (hidle _)) hboth (by simp)
    | panicked => exact .relayPanicked (.inl (hidle _)) hboth hresult (by simp)

theorem Download.relayFlush_change (hidle : ∀ d : Download, d.Idle e)
    (hrelay : d.phase.relay.isSome = true) :
    Change decrypt d e (d.relayFlush decrypt io) [] := by
  unfold Download.relayFlush
  cases hflush : d.state.decryptedFile.pollFlush decrypt io with
  | mk file result =>
    have hfile := pollFlush_flushed hflush
    have hresult := DecryptedFile.pollFlush_result hflush
    cases result with
    | pending => exact .relayPolled (hidle _) (.inl rfl) hrelay hfile hresult.1
    | ready => exact Download.relayClose_change (d := d.setFile file) hidle hrelay hfile
    | failed error => exact .relayError (.inl (hidle _)) hfile (by simp)
    | panicked =>
      obtain ⟨rfl, hstate⟩ := hresult
      exact .relayPanicked (.inl (hidle _)) hfile (offset_poisoned.mpr hstate) (by simp)

end Relay

section Step

inductive PeerCall (decrypt : List UInt8 → Option (List UInt8)) (d : Download) :
    Event → Handled → Prop
  | opened {sends : Option ℕ} {io : List IoResult} : d.phase.connects = false →
      PeerCall decrypt d (.peerOpened sends io) (d.state.requestDataOrFinish decrypt sends io)
  | connecting {message : Option UploaderMessage} {sends : Option ℕ} {io : List IoResult} :
      d.phase.connects = true →
      PeerCall decrypt d (.peerMessage message sends io)
        (d.state.connectMessage decrypt message sends io)
  | transferring {message : Option UploaderMessage} {sends : Option ℕ} {io : List IoResult} :
      d.phase.connects = false →
      PeerCall decrypt d (.peerMessage message sends io)
        (d.state.dataChannelMessage decrypt message sends io)
  | flushed {sends : Option ℕ} {io : List IoResult} : d.phase.peer = some .flushing →
      PeerCall decrypt d (.peerFlush sends io) (d.state.finish decrypt sends io)

inductive Runs (decrypt : List UInt8 → Option (List UInt8)) (d : Download) :
    Event → Download × List Output → Prop
  | started {ok : Bool} : d.phase = .starting →
      Runs decrypt d (.started ok)
        (d.setPhase (if ok then .connecting .offering else .resolved (.error .connect)), [])
  | offered : d.phase.peer = some .offering →
      Runs decrypt d (.offered true) (d.setPhase (d.phase.setPeer .receiving), [])
  | opened {sends : Option ℕ} {io : List IoResult} : d.phase.peer = some .receiving →
      d.phase.connects = true → Runs decrypt d (.peerOpened sends io) (d, [.sent .hello])
  | peerError {e : Event} {error : Error} :
      (d.phase.peer.isSome = true ∨ ∃ before, d.phase = .finishing before) → d.Idle e →
      Runs decrypt d e (d.peerError error, [])
  | peerHandled {e : Event} {h : Handled} : d.phase.peer.isSome = true →
      PeerCall decrypt d e h → Runs decrypt d e (d.peerHandled h)
  | finished {before : Option ℕ} : d.phase = .finishing before →
      Runs decrypt d (.finished true) (d.setPhase (.resolved (.ok ())), [])
  | relayRequest : d.phase.relay = some .idle → Runs decrypt d .relayRequest d.relayRequest
  | relayResponse {offset : ℕ} : d.phase.relay = some (.requesting offset) →
      Runs decrypt d .relayResponse (d.setPhase (d.phase.setRelay (.streaming offset 0)), [])
  | relayChunk {offset downloaded : ℕ} {data : List UInt8} :
      d.phase.relay = some (.streaming offset downloaded) →
      Runs decrypt d (.relayChunk data) (d.relayChunk offset downloaded data)
  | relayFlush {e : Event} {io : List IoResult} : d.phase.relay.isSome = true →
      (∀ d : Download, d.Idle e) → Runs decrypt d e (d.relayFlush decrypt io, [])
  | relayClose {e : Event} {io : List IoResult} : d.phase.relay.isSome = true →
      (∀ d : Download, d.Idle e) → Runs decrypt d e (d.relayClose decrypt io, [])
  | relayRetry : d.phase.relay.isSome = true →
      Runs decrypt d (.relayFailed true) (d.setPhase (d.phase.setRelay .idle), [])
  | relayFailed {retried : Bool} : d.phase.relay.isSome = true →
      Runs decrypt d (.relayFailed retried) (d.setPhase (.resolved (.error .relay)), [])

theorem Download.started_runs {ok : Bool} (h : d.step decrypt (.started ok) = some (d', os)) :
    Runs decrypt d (.started ok) (d', os) := by
  simp only [Download.step] at h
  cases hphase : d.phase with
  | starting =>
    simp only [hphase] at h
    obtain ⟨rfl, rfl⟩ := Prod.mk.inj (Option.some.inj h)
    exact .started hphase
  | _ => simp [hphase] at h

theorem Download.offered_runs {ok : Bool} (h : d.step decrypt (.offered ok) = some (d', os)) :
    Runs decrypt d (.offered ok) (d', os) := by
  simp only [Download.step] at h
  split_ifs at h with hpeer hok
  · obtain ⟨rfl, rfl⟩ := Prod.mk.inj (Option.some.inj h)
    subst hok
    exact .offered hpeer
  · obtain ⟨rfl, rfl⟩ := Prod.mk.inj (Option.some.inj h)
    exact .peerError (.inl (by rw [hpeer]; rfl)) ⟨rfl, rfl⟩

theorem Download.peerOpened_runs {sends : Option ℕ} {io : List IoResult}
    (hpeer : d.phase.peer = some .receiving) :
    Runs decrypt d (.peerOpened sends io) (d.peerOpened decrypt sends io) := by
  have hsome : d.phase.peer.isSome = true := by rw [hpeer]; rfl
  unfold Download.peerOpened
  by_cases hconnects : d.phase.connects = true
  · rw [if_pos hconnects]
    cases trySend sends with
    | none => exact .peerError (.inl hsome) ⟨rfl, if_pos hconnects⟩
    | some rest => exact .opened hpeer hconnects
  · rw [if_neg hconnects]
    exact .peerHandled hsome (.opened (Bool.eq_false_iff.mpr hconnects))

theorem Download.peerMessage_runs {message : Option UploaderMessage} {sends : Option ℕ}
    {io : List IoResult} (hsome : d.phase.peer.isSome = true) :
    Runs decrypt d (.peerMessage message sends io) (d.peerMessage decrypt message sends io) := by
  unfold Download.peerMessage
  by_cases hconnects : d.phase.connects = true
  · rw [if_pos hconnects]
    exact .peerHandled hsome (.connecting hconnects)
  · rw [if_neg hconnects]
    exact .peerHandled hsome (.transferring (Bool.eq_false_iff.mpr hconnects))

theorem Download.finished_runs {ok : Bool} (h : d.step decrypt (.finished ok) = some (d', os)) :
    Runs decrypt d (.finished ok) (d', os) := by
  simp only [Download.step] at h
  cases hphase : d.phase with
  | finishing before =>
    simp only [hphase] at h
    obtain ⟨rfl, rfl⟩ := Prod.mk.inj (Option.some.inj h)
    cases ok with
    | true => exact .finished hphase
    | false => exact .peerError (.inr ⟨before, hphase⟩) ⟨rfl, rfl⟩
  | _ => simp [hphase] at h

theorem Download.relayFailed_runs {retried : Bool}
    (h : d.step decrypt (.relayFailed retried) = some (d', os)) :
    Runs decrypt d (.relayFailed retried) (d', os) := by
  simp only [Download.step] at h
  cases hrelay : d.phase.relay with
  | none => simp [hrelay] at h
  | some task =>
    have hsome : d.phase.relay.isSome = true := by rw [hrelay]; rfl
    rw [hrelay] at h
    split at h
    · exact Option.some.inj h ▸ .relayFailed hsome
    · exact Option.some.inj h ▸ .relayRetry hsome
    · exact Option.some.inj h ▸ .relayRetry hsome
    · exact Option.some.inj h ▸ .relayFailed hsome
    · exact Option.some.inj h ▸ .relayFailed hsome
    · cases h

theorem Download.step_runs (h : d.step decrypt e = some (d', os)) : Runs decrypt d e (d', os) := by
  cases e with
  | started ok => exact started_runs h
  | offered ok => exact offered_runs h
  | peerOpened sends io =>
    simp only [Download.step] at h
    split_ifs at h with hpeer
    exact Option.some.inj h ▸ peerOpened_runs hpeer
  | peerMessage message sends io =>
    simp only [Download.step] at h
    split_ifs at h with hpeer
    exact Option.some.inj h ▸ peerMessage_runs (by rw [hpeer]; rfl)
  | peerFailed =>
    simp only [Download.step] at h
    split_ifs at h with hpeer
    exact Option.some.inj h ▸ .peerError (.inl (by rw [hpeer]; rfl)) ⟨rfl, rfl⟩
  | peerFlush sends io =>
    simp only [Download.step] at h
    split_ifs at h with hpeer
    exact Option.some.inj h ▸ .peerHandled (by rw [hpeer]; rfl) (.flushed hpeer)
  | finished ok => exact finished_runs h
  | relayRequest =>
    simp only [Download.step] at h
    split_ifs at h with hrelay
    exact Option.some.inj h ▸ .relayRequest hrelay
  | relayResponse =>
    simp only [Download.step] at h
    split at h
    · next hrelay => exact Option.some.inj h ▸ .relayResponse hrelay
    · cases h
  | relayChunk data =>
    simp only [Download.step] at h
    split at h
    · next hrelay => exact Option.some.inj h ▸ .relayChunk hrelay
    · cases h
  | relayEnd io =>
    simp only [Download.step] at h
    split at h
    · next hrelay =>
      exact Option.some.inj h ▸ .relayFlush (by rw [hrelay]; rfl) fun _ => ⟨rfl, rfl⟩
    · cases h
  | relayFlush io =>
    simp only [Download.step] at h
    split at h
    · next hrelay =>
      exact Option.some.inj h ▸ .relayFlush (by rw [hrelay]; rfl) fun _ => ⟨rfl, rfl⟩
    · next hrelay =>
      exact Option.some.inj h ▸ .relayClose (by rw [hrelay]; rfl) fun _ => ⟨rfl, rfl⟩
    · cases h
  | relayFailed retried => exact relayFailed_runs h

theorem PeerCall.handles {h : Handled} (hcall : PeerCall decrypt d e h) : Handles decrypt d e h := by
  cases hcall with
  | @opened sends io hconnects =>
    have hsends : d.requestSends (.peerOpened sends io) = some sends := by
      simp [Download.requestSends, hconnects]
    exact requestDataOrFinish_handles hsends (.nothing rfl)
  | connecting hconnects => exact connectMessage_handles hconnects _
  | @transferring message sends io hconnects =>
    cases message with
    | none => exact .refused (.inl ⟨rfl, rfl⟩)
    | some message => exact handleUploaderMessage_handles hconnects message
  | flushed hpeer => exact .flushed hpeer

theorem Runs.change {next : Download × List Output} (h : Runs decrypt d e next) :
    Change decrypt d e next.1 next.2 := by
  cases h with
  | started hphase => exact .started hphase
  | offered hpeer => exact .offered hpeer
  | opened hpeer hconnects => exact .opened hpeer hconnects
  | @peerError _ error hpeer hidle =>
    obtain ⟨phase, herr, hafter⟩ := d.peerError_phase error hpeer
    rw [herr]
    exact .peerError hafter hidle
  | peerHandled hpeer hcall => exact Download.peerHandled_change hcall.handles hpeer rfl
  | finished hphase => exact .finished hphase
  | relayRequest hrelay =>
    unfold Download.relayRequest
    cases hoff : d.offset with
    | none => exact .relayPanicked (.inl ⟨rfl, rfl⟩) .refl hoff (by simp)
    | some offset => exact .relayRequest hrelay hoff
  | relayResponse hrelay => exact .relayResponse hrelay
  | relayChunk hrelay => exact Download.relayChunk_change hrelay rfl
  | relayFlush hrelay hidle => exact Download.relayFlush_change hidle hrelay
  | relayClose hrelay hidle => exact Download.relayClose_change hidle hrelay .refl
  | relayRetry hrelay => exact .relayRetry hrelay
  | relayFailed hrelay => exact .relayError (.inl ⟨rfl, rfl⟩) .refl (by simp)

theorem Download.step_change (h : d.step decrypt e = some (d', os)) : Change decrypt d e d' os :=
  (Download.step_runs h).change

end Step

end Glopfile.Client

import Mathlib.Order.Nat
import Glopfile.Segments
import Glopfile.Client.UploadState

/-!
# What a download asks for

The requests of one step go on from `requested_offset`, none of them empty. A transfer that
goes on leaves its file readable, and awaits a message only when it has requested all it may.
-/

namespace Glopfile.Client

def Asked (start : ℕ) (request : DataRequest) (stop : ℕ) : Prop :=
  request.offset = start ∧ 0 < request.len ∧ request.len ≤ chunkSize ∧
    stop = start + request.len

abbrev Tiles : ℕ → List DataRequest → ℕ → Prop := Segments Asked

inductive Asks : ℕ → DownloaderMessage → ℕ → Prop
  | hello {start : ℕ} : Asks start .hello start
  | request {start stop : ℕ} {request : DataRequest} :
      Asked start request stop → Asks start (.dataRequest request) stop
  | finished {start : ℕ} : Asks start .transferFinished start

inductive Answers (encrypted : List UInt8) : ℕ → UploaderMessage → ℕ → Prop
  | hello {start : ℕ} : Answers encrypted start .hello start
  | response {start : ℕ} {data : List UInt8} : data ≠ [] →
      encrypted.take start ++ data <+: encrypted → start ≤ encrypted.length →
      Answers encrypted start (.dataResponse start data) (start + data.length)

variable {decrypt : List UInt8 → Option (List UInt8)} {d d' : Download} {e : Event}
  {os : List Output} {peer : PeerTask} {before : Option ℕ}

theorem Asks.le {start stop : ℕ} {message : DownloaderMessage} (h : Asks start message stop) :
    start ≤ stop := by
  cases h with
  | hello => exact Nat.le_refl _
  | request hasked =>
    obtain ⟨-, -, -, rfl⟩ := hasked
    exact Nat.le_add_right _ _
  | finished => exact Nat.le_refl _

theorem Answers.le {encrypted : List UInt8} {start stop : ℕ} {message : UploaderMessage}
    (h : Answers encrypted start message stop) : start ≤ stop := by
  cases h with
  | hello => exact Nat.le_refl _
  | response => exact Nat.le_add_right _ _

section Steps
variable {s : DownloadState} {received fuel : ℕ} {sends : Option ℕ}

theorem nextDataRequest_asked {request : DataRequest}
    (h : s.nextDataRequest received = .ok (some request)) :
    Asked s.requestedOffset request (s.requestedOffset + request.len) := by
  by_cases hle : received ≤ s.requestedOffset
  · rw [DownloadState.nextDataRequest_eq hle] at h
    split_ifs at h with hlt
    · obtain rfl := Option.some.inj (Except.ok.inj h)
      refine ⟨rfl, ?_, Nat.min_le_right _ _, rfl⟩
      simp only [chunkSize]
      omega
    · cases h
  · rw [DownloadState.nextDataRequest, if_pos (Nat.not_le.mp hle)] at h
    cases h

theorem requestData_asks : Segments Asks s.requestedOffset
    ((DownloadState.requestData received fuel s sends).outputs.filterMap Output.message)
    (DownloadState.requestData received fuel s sends).state.requestedOffset := by
  induction fuel generalizing s sends with
  | zero => exact .nil
  | succ fuel ih =>
    simp only [DownloadState.requestData]
    cases hnext : s.nextDataRequest received with
    | error panic => exact .nil
    | ok next =>
      cases next with
      | none => exact .nil
      | some request =>
        cases trySend sends with
        | none => exact .nil
        | some rest =>
          exact .cons (.request (nextDataRequest_asked hnext))
            (@ih { s with requestedOffset := s.requestedOffset + request.len } rest)

theorem finish_asks {io : List IoResult} : Segments Asks s.requestedOffset
    ((s.finish decrypt sends io).outputs.filterMap Output.message)
    (s.finish decrypt sends io).state.requestedOffset := by
  obtain ⟨g, polled, -, hstate, hcases⟩ := finish_cases decrypt s sends io
  rw [hstate]
  rcases hcases with ⟨-, -, h⟩ | ⟨-, -, -, h⟩ | ⟨-, -, h⟩ | ⟨-, -, h⟩ | ⟨-, -, h⟩
  · rw [h]
    exact .nil
  · rw [h]
    exact .nil
  · rw [h]
    exact .nil
  · rw [h]
    exact .nil
  · rw [h]
    exact .single .finished

theorem Stored.messages {file : DecryptedFile} {outputs : List Output}
    (h : Stored d e file outputs) : outputs.filterMap Output.message = [] := by
  cases h with
  | nothing => rfl
  | response => rfl

theorem Handles.asks {h : Handled} (hh : Handles decrypt d e h) :
    Segments Asks d.state.requestedOffset (h.outputs.filterMap Output.message)
      h.state.requestedOffset := by
  cases hh with
  | ignored => exact .nil
  | refused => exact .nil
  | poisoned => exact .nil
  | @requests _ sends file outputs received _ hst =>
    rw [Handled.after, List.filterMap_append, hst.messages]
    exact requestData_asks (s := { d.state with decryptedFile := file })
  | @finishes _ sends io file outputs received _ hst =>
    rw [Handled.after, List.filterMap_append, hst.messages]
    exact finish_asks (s := { d.state with decryptedFile := file })
  | flushed => exact finish_asks

theorem Phase.AfterAwait.messages {phase next : Phase} {offset : Option ℕ} {result : Await}
    {outputs : List Output} (h : phase.AfterAwait offset result next outputs) :
    outputs.filterMap Output.message = [] := by
  cases h <;> rfl

theorem progress_messages (h : ∀ o ∈ os, ∃ current total, o = .progress current total) :
    os.filterMap Output.message = [] := by
  rw [List.filterMap_eq_nil_iff]
  intro o ho
  obtain ⟨current, total, rfl⟩ := h o ho
  rfl

theorem Change.asks (hc : Change decrypt d e d' os) :
    Segments Asks d.state.requestedOffset (os.filterMap Output.message)
      d'.state.requestedOffset := by
  cases hc with
  | started => exact .nil
  | offered => exact .nil
  | opened => exact .single .hello
  | peerError => exact .nil
  | handled hh hafter =>
    rw [List.filterMap_append, hafter.messages, List.append_nil]
    exact hh.asks
  | finished => exact .nil
  | relayRequest => exact .nil
  | relayResponse => exact .nil
  | relayRetry => exact .nil
  | relayStored => exact .nil
  | relayPolled => exact .nil
  | relayClosed => exact .nil
  | relayError _ _ hos =>
    rw [progress_messages hos]
    exact .nil
  | relayPanicked _ _ _ hos =>
    rw [progress_messages hos]
    exact .nil

theorem finish_breaks {io : List IoResult}
    (h : .transferFinished ∈ (s.finish decrypt sends io).outputs.filterMap Output.message) :
    (s.finish decrypt sends io).result = .returned .breaks := by
  obtain ⟨g, polled, -, -, hcases⟩ := finish_cases decrypt s sends io
  rcases hcases with ⟨-, -, hos⟩ | ⟨-, -, -, hos⟩ | ⟨-, -, hos⟩ | ⟨-, -, hos⟩ | ⟨-, hresult, -⟩
  · simp [hos] at h
  · simp [hos] at h
  · simp [hos] at h
  · simp [hos] at h
  · exact hresult

theorem Handles.breaks {h : Handled} (hh : Handles decrypt d e h)
    (hfinished : .transferFinished ∈ h.outputs.filterMap Output.message) :
    h.result = .returned .breaks := by
  cases hh with
  | ignored => cases hfinished
  | refused => cases hfinished
  | poisoned => cases hfinished
  | requests _ hst =>
    rw [Handled.after, List.filterMap_append, hst.messages, List.nil_append] at hfinished
    obtain ⟨o, ho, hmessage⟩ := List.mem_filterMap.mp hfinished
    obtain ⟨request, rfl⟩ := DownloadState.requestData_outputs ho
    cases hmessage
  | finishes _ hst =>
    rw [Handled.after, List.filterMap_append, hst.messages, List.nil_append] at hfinished
    exact finish_breaks hfinished
  | flushed => exact finish_breaks hfinished

theorem Change.breaks (hc : Change decrypt d e d' os)
    (hfinished : .transferFinished ∈ os.filterMap Output.message) : d'.phase.succeeds = true := by
  cases hc with
  | opened => simp [Output.message] at hfinished
  | @handled _ h phase outputs hh hafter =>
    rw [List.filterMap_append, hafter.messages, List.append_nil] at hfinished
    rw [hh.breaks hfinished] at hafter
    cases hafter with
    | ended => rfl
    | transferred => rfl
  | relayStored => simp [Output.message] at hfinished
  | relayRequest => simp [Output.message] at hfinished
  | relayError _ _ hos =>
    rw [progress_messages hos] at hfinished
    cases hfinished
  | relayPanicked _ _ _ hos =>
    rw [progress_messages hos] at hfinished
    cases hfinished
  | _ => cases hfinished

theorem finish_flushing {io : List IoResult}
    (h : (s.finish decrypt sends io).result = .flushing) :
    (s.finish decrypt sends io).state.decryptedFile.offset = some s.decryptedFile.fileSize ∧
      (s.finish decrypt sends io).state.totalLen = s.totalLen := by
  obtain ⟨g, polled, hflush, hstate, hcases⟩ := finish_cases decrypt s sends io
  have hend := DecryptedFile.pollFlush_result hflush
  rw [hstate]
  rcases hcases with ⟨rfl, -, -⟩ | ⟨_, -, hother, -⟩ | ⟨-, hother, -⟩ | ⟨-, hother, -⟩ |
    ⟨-, hother, -⟩
  · refine ⟨?_, rfl⟩
    cases hoff : g.offset with
    | none => exact absurd (offset_poisoned.mp hoff) hend.2
    | some offset =>
      rw [offset_started hend.1 hoff, DecryptedFile.pollFlush_fileSize hflush]
  all_goals rw [hother] at h; cases h

end Steps

section Phases
variable {phase next : Phase} {offset : Option ℕ} {result : Await} {outputs : List Output}

theorem Phase.AfterError.attempts {error : Error} (h : phase.AfterError offset error next) :
    next.attempts = false := by
  cases h <;> rfl

theorem Phase.AfterAwait.attempts (h : phase.AfterAwait offset result next outputs)
    (hnext : next.attempts = true) : result = .returned .continues ∨ result = .flushing := by
  cases h with
  | connected => exact .inl rfl
  | received => exact .inl rfl
  | flushing => exact .inr rfl
  | failed herror =>
    rw [herror.attempts] at hnext
    cases hnext
  | poisoned => cases hnext
  | ended => cases hnext
  | transferred => cases hnext
  | panicked => cases hnext

theorem Phase.succeeds_attempts (h : phase.succeeds = true) : phase.attempts = false := by
  cases phase with
  | finishing before => rfl
  | resolved result => rfl
  | _ => cases h

theorem Phase.setRelay_attempts {task : RelayTask} (hrelay : phase.relay.isSome = true) :
    (phase.setRelay task).attempts = false := by
  cases phase with
  | fallback peer relay => rfl
  | continuing relay => rfl
  | relaying relay => rfl
  | _ => cases hrelay

end Phases

theorem Handles.goesOn {h : Handled} (hh : Handles decrypt d e h) (hoff : d.offset ≠ none)
    (hresult : h.result = .returned .continues ∨ h.result = .flushing) :
    h.state.decryptedFile.offset ≠ none := by
  cases hh with
  | ignored => exact hoff
  | refused => exact hoff
  | poisoned => exact hoff
  | @requests _ sends file outputs received _ hst hfile =>
    obtain ⟨hsame, -, -⟩ := DownloadState.requestData_frame received
      (d.state.totalLen - d.state.requestedOffset + 1) { d.state with decryptedFile := file } sends
    simp [Handled.after, hsame, hfile]
  | finishes =>
    rcases hresult with hcontinues | hflushing
    · exact absurd hcontinues (finish_not_continues _ _ _)
    · simp [Handled.after, (finish_flushing hflushing).1]
  | flushed =>
    rcases hresult with hcontinues | hflushing
    · exact absurd hcontinues (finish_not_continues _ _ _)
    · simp [(finish_flushing hflushing).1]

theorem Change.goesOn (hc : Change decrypt d e d' os) (hoff : d.offset ≠ none)
    (hattempts : d'.phase.attempts = true) : d'.offset ≠ none := by
  cases hc with
  | started => exact hoff
  | offered => exact hoff
  | opened => exact hoff
  | peerError herror =>
    rw [Download.setPhase_phase, herror.attempts] at hattempts
    cases hattempts
  | handled hh hafter => exact hh.goesOn hoff (hafter.attempts hattempts)
  | finished => exact hoff
  | relayRequest => exact hoff
  | relayResponse => exact hoff
  | relayRetry => exact hoff
  | relayStored hrelay =>
    rw [Download.setPhase_phase, Phase.setRelay_attempts (by rw [hrelay]; rfl)] at hattempts
    cases hattempts
  | relayPolled _ _ hrelay =>
    rw [Download.setPhase_phase, Phase.setRelay_attempts hrelay] at hattempts
    cases hattempts
  | relayClosed => cases hattempts
  | relayError => cases hattempts
  | relayPanicked => cases hattempts

def DownloadState.Requested (s : DownloadState) (received : Option ℕ) : Prop :=
  ∀ offset, received = some offset →
    windowEnd s.totalLen offset ≤ s.requestedOffset ∨ s.totalLen ≤ offset

theorem Handles.requested {h : Handled} (hh : Handles decrypt d e h)
    (htotal : d.state.totalLen = d.state.decryptedFile.fileSize)
    (hsends : ∀ sends, d.requestSends e = some sends → sends = none)
    (hbefore : h.result = .returned .continues → d.phase.connects = false →
      d.state.Requested d.state.decryptedFile.offset)
    (hresult : h.result = .returned .continues ∨ h.result = .flushing) :
    h.state.Requested h.state.decryptedFile.offset := by
  intro offset hoff
  cases hh with
  | ignored hconnects => exact hbefore rfl hconnects offset hoff
  | refused => rcases hresult with h | h <;> cases h
  | poisoned => rcases hresult with h | h <;> cases h
  | @requests _ sends file outputs received hs hst hfile hlt =>
    obtain rfl := hsends _ hs
    by_cases hle : received ≤ d.state.requestedOffset
    · obtain ⟨hstate, -⟩ := DownloadState.requestData_reach
        (s := { d.state with decryptedFile := file }) none hle
        (Nat.lt_succ_self (d.state.totalLen - d.state.requestedOffset))
      simp only [Handled.after, hstate, hfile, Option.some.injEq] at hoff ⊢
      subst hoff
      exact .inl (Nat.le_max_right _ _)
    · have hover : DownloadState.requestData _ (d.state.totalLen - d.state.requestedOffset + 1)
          { d.state with decryptedFile := file } none = _ :=
        DownloadState.requestData_overrun (Nat.not_le.mp hle)
      simp [Handled.after, hover] at hresult
  | finishes _ hst =>
    rcases hresult with hcontinues | hflushing
    · exact absurd hcontinues (finish_not_continues _ _ _)
    · obtain ⟨hend, htotal'⟩ := finish_flushing hflushing
      obtain rfl := Option.some.inj (hend.symm.trans hoff)
      refine .inr (Nat.le_of_eq ?_)
      exact htotal'.trans (htotal.trans hst.fileSize.symm)
  | flushed =>
    rcases hresult with hcontinues | hflushing
    · exact absurd hcontinues (finish_not_continues _ _ _)
    · obtain ⟨hend, htotal'⟩ := finish_flushing hflushing
      obtain rfl := Option.some.inj (hend.symm.trans hoff)
      exact .inr (Nat.le_of_eq (htotal'.trans htotal))

def Download.Requested (d : Download) : Prop :=
  ∀ peer before, d.phase = .transferring peer before → d.state.Requested d.offset

theorem Change.requested (hc : Change decrypt d e d' os)
    (htotal : d.state.totalLen = d.state.decryptedFile.fileSize)
    (hsends : ∀ sends, d.requestSends e = some sends → sends = none) (h : d.Requested) :
    d'.Requested := by
  intro peer before hphase
  cases hc with
  | @started ok _ => cases ok <;> cases hphase
  | offered =>
    obtain ⟨peer', hphase'⟩ := Phase.setPeer_transferring hphase
    exact h peer' before hphase'
  | opened => exact h peer before hphase
  | peerError herror => exact absurd hphase herror.transferring
  | handled hh haw =>
    obtain ⟨-, hresult⟩ := haw.transferring hphase
    refine hh.requested htotal hsends (fun hcontinues hconnects => ?_) ?_
    · rcases hresult with hflushing | ⟨-, hconnects' | ⟨peer', hphase'⟩⟩
      · rw [hcontinues] at hflushing
        cases hflushing
      · rw [hconnects] at hconnects'
        cases hconnects'
      · exact h peer' before hphase'
    · exact hresult.symm.imp And.left id
  | finished => cases hphase
  | relayRequest hrelay =>
    exact absurd hphase (Phase.setRelay_transferring (by rw [hrelay]; rfl))
  | relayResponse hrelay =>
    exact absurd hphase (Phase.setRelay_transferring (by rw [hrelay]; rfl))
  | relayRetry hrelay => exact absurd hphase (Phase.setRelay_transferring hrelay)
  | relayStored hrelay =>
    exact absurd hphase (Phase.setRelay_transferring (by rw [hrelay]; rfl))
  | relayPolled _ _ hrelay => exact absurd hphase (Phase.setRelay_transferring hrelay)
  | relayClosed => cases hphase
  | relayError => cases hphase
  | relayPanicked => cases hphase

end Glopfile.Client

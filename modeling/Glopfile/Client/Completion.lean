import Glopfile.Client.DownloaderSteps

/-!
# What a download that resolves to Ok has received and written

The relay task ends with a flush and a close, and the close refuses a file that is not
complete. The p2p task ends with a flush only, which returns at once for a buffer of the
wrong length; so a p2p download with more bytes than the file has is reported as complete,
and nothing is written. Every other download that resolves to `Ok` is complete.
-/

namespace Glopfile.Client

open EventMachine (Trace)

def Output.bytes : Output → List UInt8
  | .stored data => data
  | _ => []

def storedBytes (os : List Output) : List UInt8 := os.flatMap Output.bytes

def received (tr : Trace Event Output) : List UInt8 := tr.flatMap fun p => storedBytes p.2

def Phase.succeeds : Phase → Bool
  | .finishing _ | .resolved (.ok _) => true
  | _ => false

/-- The file is complete, or its buffer too long to ever be flushed. -/
def DecryptedFile.Filled (f : DecryptedFile) : Prop :=
  f.state = .complete ∨ ∃ data, f.state = .unwritten data ∧ f.fileSize < data.length

namespace Download

/-- The event does not take the buffer past the expected length. -/
def Fits (d : Download) (e : Event) : Prop :=
  ∀ buffer, d.state.decryptedFile.state = .unwritten buffer →
    buffer.length + (d.brings e).length ≤ d.state.decryptedFile.fileSize

/-- `Complete`, after exactly `file_size` bytes of ciphertext, whose plaintext the output file
was given, flushed and closed. -/
def Completed (decrypt : List UInt8 → Option (List UInt8)) (fileSize : ℕ)
    (tr : Trace Event Output) (d : Download) : Prop :=
  d.state.decryptedFile.state = .complete ∧ (received tr).length = ciphertextLen fileSize ∧
    d.state.decryptedFile.file.Finished decrypt (received tr)

end Download

structure Sound (decrypt : List UInt8 → Option (List UInt8)) (fileSize : ℕ)
    (tr : Trace Event Output) (d : Download) : Prop where
  size : d.state.decryptedFile.fileSize = ciphertextLen fileSize
  total : d.state.totalLen = ciphertextLen fileSize
  stores : d.state.decryptedFile.Stores decrypt (received tr)
  flushing : d.phase.peer = some .flushing → d.state.decryptedFile.started = true
  succeeds : d.phase.succeeds = true → d.state.decryptedFile.Filled

variable {decrypt : List UInt8 → Option (List UInt8)} {transport : Transport} {fileSize : ℕ}
  {d d' : Download} {e : Event} {os : List Output} {tr : Trace Event Output}

@[simp] theorem received_snoc : received (tr ++ [(e, os)]) = received tr ++ storedBytes os := by
  simp [received]

@[simp] theorem storedBytes_append {os os' : List Output} :
    storedBytes (os ++ os') = storedBytes os ++ storedBytes os' := by
  simp [storedBytes]

theorem storedBytes_nil (h : ∀ o ∈ os, o.bytes = []) : storedBytes os = [] :=
  List.flatMap_eq_nil_iff.mpr h

theorem storedBytes_requestData {read fuel : ℕ} {s : DownloadState} {sends : Option ℕ} :
    storedBytes (DownloadState.requestData read fuel s sends).outputs = [] := by
  refine storedBytes_nil fun o ho => ?_
  obtain ⟨request, rfl⟩ := DownloadState.requestData_outputs ho
  rfl

theorem storedBytes_finish {s : DownloadState} {sends : Option ℕ} {io : List IoResult} :
    storedBytes (s.finish decrypt sends io).outputs = [] := by
  obtain ⟨_, _, _, _, ⟨_, _, h⟩ | ⟨_, _, _, h⟩ | ⟨_, _, h⟩ | ⟨_, _, h⟩ | ⟨_, _, h⟩⟩ :=
    finish_cases decrypt s sends io
  all_goals rw [h]; rfl

section Phases

@[simp] theorem Phase.setRelay_peer (phase : Phase) (task : RelayTask) :
    (phase.setRelay task).peer = phase.peer := by
  cases phase <;> rfl

@[simp] theorem Phase.setRelay_succeeds (phase : Phase) (task : RelayTask) :
    (phase.setRelay task).succeeds = phase.succeeds := by
  cases phase <;> rfl

@[simp] theorem Phase.setPeer_succeeds (phase : Phase) (task : PeerTask) :
    (phase.setPeer task).succeeds = phase.succeeds := by
  cases phase <;> rfl

theorem Phase.setPeer_peer {phase : Phase} {task task' : PeerTask}
    (h : (phase.setPeer task).peer = some task') : task = task' := by
  cases phase with
  | connecting peer => exact Option.some.inj h
  | transferring peer before => exact Option.some.inj h
  | fallback peer relay => exact Option.some.inj h
  | _ => cases h

theorem Phase.peer_isSome {phase : Phase} (h : phase.peer.isSome = true) :
    phase.succeeds = false := by
  cases phase with
  | finishing before => cases h
  | resolved result => cases h
  | _ => rfl

theorem Phase.relay_isSome {phase : Phase} (h : phase.relay.isSome = true) :
    phase.succeeds = false := by
  cases phase with
  | finishing before => cases h
  | resolved result => cases h
  | _ => rfl

theorem Phase.AfterError.quiet {phase next : Phase} {offset : Option ℕ} {error : Error}
    (h : phase.AfterError offset error next) :
    next.peer ≠ some .flushing ∧ next.succeeds = false := by
  cases h with
  | fallback => exact ⟨by simp [Phase.peer], rfl⟩
  | relaying => exact ⟨by simp [Phase.peer], rfl⟩
  | resolved => exact ⟨by simp [Phase.peer], rfl⟩
  | panicked => exact ⟨by simp [Phase.peer], rfl⟩
  | continuing => exact ⟨by simp [Phase.peer], rfl⟩

theorem Phase.AfterAwait.quiet {phase next : Phase} {offset : Option ℕ} {result : Await}
    {outputs : List Output} (h : phase.AfterAwait offset result next outputs) :
    (next.peer = some .flushing → result = .flushing) ∧
      (next.succeeds = true → result = .returned .breaks) ∧
      storedBytes outputs = [] := by
  cases h with
  | connected => exact ⟨by simp [Phase.peer], by simp [Phase.succeeds], rfl⟩
  | poisoned => exact ⟨by simp [Phase.peer], by simp [Phase.succeeds], rfl⟩
  | ended => exact ⟨by simp [Phase.peer], fun _ => rfl, rfl⟩
  | received => exact ⟨by simp [Phase.peer], by simp [Phase.succeeds], rfl⟩
  | transferred => exact ⟨by simp [Phase.peer], fun _ => rfl, rfl⟩
  | failed herror =>
    exact ⟨fun h => absurd h herror.quiet.1, by simp [herror.quiet.2], rfl⟩
  | flushing hpeer => exact ⟨fun _ => rfl, by simp [Phase.peer_isSome hpeer], rfl⟩
  | panicked => exact ⟨by simp [Phase.peer], by simp [Phase.succeeds], rfl⟩

end Phases

theorem Sound.stored (hs : Sound decrypt fileSize tr d) {file : DecryptedFile}
    {outputs : List Output} (h : Stored d e file outputs) :
    file.Stores decrypt (received tr ++ storedBytes outputs) := by
  cases h with
  | nothing hacc => simpa [storedBytes] using hs.stores
  | response hoff hacc hwrite =>
    simpa [storedBytes, Output.bytes] using DecryptedFile.writeAll_stores hs.stores hwrite

/-- A flush of a file that has received all its bytes or more either awaits the boxed future,
fails, or leaves the file filled. -/
theorem finish_filled {s : DownloadState} {sends : Option ℕ} {io : List IoResult}
    (hready : s.decryptedFile.started = true ∨
      ∃ n, s.decryptedFile.offset = some n ∧ s.decryptedFile.fileSize ≤ n) :
    Flushed decrypt s.decryptedFile (s.finish decrypt sends io).state.decryptedFile ∧
      (s.finish decrypt sends io).state.totalLen = s.totalLen ∧
      ((s.finish decrypt sends io).result = .flushing →
        (s.finish decrypt sends io).state.decryptedFile.started = true) ∧
      ((s.finish decrypt sends io).result = .returned .breaks →
        (s.finish decrypt sends io).state.decryptedFile.Filled) := by
  obtain ⟨g, polled, hflush, hstate, hcases⟩ := finish_cases decrypt s sends io
  have hresult := DecryptedFile.pollFlush_result hflush
  rw [hstate]
  refine ⟨pollFlush_flushed hflush, rfl, fun hflushing => ?_, fun hbreaks => ?_⟩
  · rcases hcases with ⟨rfl, _⟩ | ⟨_, _, h, _⟩ | ⟨_, h, _⟩ | ⟨_, h, _⟩ | ⟨_, h, _⟩
    · exact hresult.1
    all_goals simp [h] at hflushing
  · rcases hcases with ⟨_, h, _⟩ | ⟨_, _, h, _⟩ | ⟨_, h, _⟩ | ⟨_, h, _⟩ | ⟨rfl, _, _⟩
    any_goals simp [h] at hbreaks
    rcases hresult with hcomplete | ⟨rfl, data, hdata, hlen⟩
    · exact .inl hcomplete
    · rcases hready with hst | ⟨n, hn, hle⟩
      · simp [DecryptedFile.started, hdata] at hst
      · rw [DecryptedFile.offset_unwritten hdata] at hn
        obtain rfl := Option.some.inj hn
        exact .inr ⟨data, hdata, Nat.lt_of_le_of_ne hle (Ne.symm hlen)⟩

theorem Sound.handles (hs : Sound decrypt fileSize tr d) {h : Handled}
    (hh : Handles decrypt d e h) :
    h.state.decryptedFile.fileSize = ciphertextLen fileSize ∧
      h.state.totalLen = ciphertextLen fileSize ∧
      h.state.decryptedFile.Stores decrypt (received tr ++ storedBytes h.outputs) ∧
      (h.result = .flushing → h.state.decryptedFile.started = true) ∧
      (h.result = .returned .breaks → h.state.decryptedFile.Filled) := by
  cases hh with
  | ignored => exact ⟨hs.size, hs.total, by simpa [storedBytes] using hs.stores, by simp, by simp⟩
  | refused => exact ⟨hs.size, hs.total, by simpa [storedBytes] using hs.stores, by simp, by simp⟩
  | poisoned => exact ⟨hs.size, hs.total, by simpa [storedBytes] using hs.stores, by simp, by simp⟩
  | @requests _ sends file outputs offset hsends hst hoff hlt =>
    obtain ⟨hfile, htotal, hresult⟩ := DownloadState.requestData_frame offset
      (d.state.totalLen - d.state.requestedOffset + 1)
      { d.state with decryptedFile := file } sends
    refine ⟨?_, htotal.trans hs.total, ?_, ?_, ?_⟩
    · simp only [Handled.after, hfile, hst.fileSize, hs.size]
    · simp only [Handled.after, hfile, storedBytes_append, storedBytes_requestData,
        List.append_nil]
      exact hs.stored hst
    · intro hflush
      rcases hresult with h | h | h
      all_goals rw [Handled.after, h] at hflush; cases hflush
    · intro hbreak
      rcases hresult with h | h | h
      all_goals rw [Handled.after, h] at hbreak; cases hbreak
  | @finishes _ sends io file outputs offset hsends hst hoff hle =>
    have hready : file.fileSize ≤ offset := by rw [hst.fileSize, hs.size, ← hs.total]; exact hle
    obtain ⟨hflushed, htotal, hflushing, hbreaks⟩ :=
      @finish_filled decrypt { d.state with decryptedFile := file } sends io
        (.inr ⟨offset, hoff, hready⟩)
    refine ⟨hflushed.size.trans (hst.fileSize.trans hs.size), htotal.trans hs.total, ?_,
      hflushing, hbreaks⟩
    simp only [Handled.after, storedBytes_append, storedBytes_finish, List.append_nil]
    exact hflushed.stores _ (hs.stored hst)
  | flushed hpeer =>
    obtain ⟨hflushed, htotal, hflushing, hbreaks⟩ := finish_filled (.inl (hs.flushing hpeer))
    refine ⟨hflushed.size.trans hs.size, htotal.trans hs.total, ?_, hflushing, hbreaks⟩
    rw [storedBytes_finish, List.append_nil]
    exact hflushed.stores _ hs.stores

theorem Sound.quiet (hs : Sound decrypt fileSize tr d) (hos : storedBytes os = [])
    {phase : Phase} (hpeer : phase.peer = some .flushing → d.phase.peer = some .flushing)
    (hsucceeds : phase.succeeds = true → d.phase.succeeds = true) :
    Sound decrypt fileSize (tr ++ [(e, os)]) (d.setPhase phase) where
  size := hs.size
  total := hs.total
  stores := by simpa [hos] using hs.stores
  flushing h := hs.flushing (hpeer h)
  succeeds h := hs.succeeds (hsucceeds h)

theorem Sound.polled (hs : Sound decrypt fileSize tr d) (hos : storedBytes os = [])
    {file : DecryptedFile} (hfile : Flushed decrypt d.state.decryptedFile file) {phase : Phase}
    (hpeer : phase.peer = some .flushing → file.started = true)
    (hsucceeds : phase.succeeds = true → file.Filled) :
    Sound decrypt fileSize (tr ++ [(e, os)]) ((d.setFile file).setPhase phase) where
  size := hfile.size.trans hs.size
  total := hs.total
  stores := by simpa [hos] using hfile.stores _ hs.stores
  flushing := hpeer
  succeeds := hsucceeds

theorem storedBytes_progress (h : ∀ o ∈ os, ∃ current total, o = .progress current total) :
    storedBytes os = [] := by
  refine storedBytes_nil fun o ho => ?_
  obtain ⟨current, total, rfl⟩ := h o ho
  rfl

theorem Sound.change (hs : Sound decrypt fileSize tr d) (hc : Change decrypt d e d' os) :
    Sound decrypt fileSize (tr ++ [(e, os)]) d' := by
  cases hc with
  | @started ok hphase =>
    refine hs.quiet rfl ?_ ?_
    · cases ok <;> simp [Phase.peer]
    · cases ok <;> simp [Phase.succeeds]
  | offered hpeer =>
    exact hs.quiet rfl (fun h => by cases Phase.setPeer_peer h) (by simp)
  | opened hpeer hconnects => exact hs.quiet rfl id id
  | peerError herror hidle =>
    exact hs.quiet rfl (fun h => absurd h herror.quiet.1) (by simp [herror.quiet.2])
  | @handled _ h phase outputs hh hafter =>
    obtain ⟨hsize, htotal, hstores, hflushing, hbreaks⟩ := hs.handles hh
    obtain ⟨hpeer, hsucceeds, hos⟩ := hafter.quiet
    refine ⟨hsize, htotal, ?_, fun hp => hflushing (hpeer hp), fun hp => hbreaks (hsucceeds hp)⟩
    simpa [hos] using hstores
  | finished hphase =>
    refine hs.quiet rfl (by simp [Phase.peer]) fun _ => ?_
    rw [hphase]
    rfl
  | relayRequest hrelay hoff => exact hs.quiet rfl (by simp) (by simp)
  | relayResponse hrelay => exact hs.quiet rfl (by simp) (by simp)
  | relayRetry hrelay => exact hs.quiet rfl (by simp) (by simp)
  | @relayStored offset downloaded data file hrelay hwrite =>
    have hstores := DecryptedFile.writeAll_stores hs.stores hwrite
    have hquiet := @Phase.relay_isSome d.phase (by rw [hrelay]; rfl)
    have hfile := DecryptedFile.writeAll_ok hwrite
    refine ⟨?_, hs.total, ?_, fun hp => ?_, by simp [hquiet]⟩
    · rcases hfile with ⟨rfl, _⟩ | ⟨_, _, rfl⟩
      · exact hs.size
      · exact hs.size
    · simpa [storedBytes, Output.bytes] using hstores
    · have hst := hs.flushing (by simpa using hp)
      rcases hfile with ⟨rfl, _⟩ | ⟨buffer, hbuffer, _⟩
      · exact hst
      · simp [DecryptedFile.started, hbuffer] at hst
  | relayPolled hidle htask hrelay hfile hst =>
    exact hs.polled rfl hfile (fun _ => hst) (by simp [Phase.relay_isSome hrelay])
  | relayClosed hidle hfile hcomplete =>
    exact hs.polled rfl hfile (by simp [Phase.peer]) fun _ => .inl hcomplete
  | relayError hidle hfile hos =>
    exact hs.polled (storedBytes_progress hos) hfile (by simp [Phase.peer])
      (by simp [Phase.succeeds])
  | relayPanicked hidle hfile hoff hos =>
    exact hs.polled (storedBytes_progress hos) hfile (by simp [Phase.peer])
      (by simp [Phase.succeeds])

theorem spawn_sound : Sound decrypt fileSize [] (.spawn transport fileSize) where
  size := rfl
  total := rfl
  stores := DecryptedFile.new_stores fileSize
  flushing h := by cases transport <;> simp [Download.spawn, Phase.peer] at h
  succeeds h := by cases transport <;> simp [Download.spawn, Phase.succeeds] at h

theorem run_sound (h : (downloadAsync decrypt transport fileSize).Run tr d) :
    Sound decrypt fileSize tr d :=
  EventMachine.Path.history (P := Sound decrypt fileSize) h spawn_sound
    fun _ _ _ _ _ _ hs _ hstep => hs.change (Download.step_change hstep)

theorem Stored.bytes {file : DecryptedFile} {outputs : List Output} {sends : Option ℕ}
    (h : Stored d e file outputs) (hsends : d.requestSends e = some sends) :
    storedBytes outputs = if d.state.decryptedFile.started then [] else d.brings e := by
  have hbrings := Download.brings_eq hsends
  cases h with
  | nothing hacc =>
    rw [hbrings, hacc, Option.getD_none, ite_self]
    rfl
  | @response offset data _ hoff hacc hwrite =>
    have hbytes : storedBytes [.stored data, .progress (offset + data.length) d.state.totalLen] =
        data := by simp [storedBytes, Output.bytes]
    rw [hbytes, hbrings, hacc, Option.getD_some]
    rcases DecryptedFile.writeAll_ok hwrite with ⟨_, rfl⟩ | ⟨buffer, hbuffer, _⟩
    · rw [ite_self]
    · rw [if_neg]
      simp [DecryptedFile.started, hbuffer]

theorem Download.Idle.bytes (h : d.Idle e ∨ d.state.decryptedFile.started = true) :
    (if d.state.decryptedFile.started then [] else d.brings e) = [] := by
  rcases h with hidle | hst
  · rw [hidle.1, ite_self]
  · rw [if_pos hst]

theorem Handles.stored {h : Handled} (hh : Handles decrypt d e h) :
    storedBytes h.outputs = if d.state.decryptedFile.started then [] else d.brings e := by
  cases hh with
  | ignored hconnects hidle => exact (Download.Idle.bytes (.inl hidle)).symm
  | refused hidle => exact (Download.Idle.bytes hidle).symm
  | poisoned hoff =>
    rw [if_pos]
    · rfl
    · simp [DecryptedFile.started, offset_poisoned.mp hoff]
  | requests hsends hst hoff hlt =>
    simpa [Handled.after, storedBytes_requestData] using hst.bytes hsends
  | finishes hsends hst hoff hle =>
    simpa [Handled.after, storedBytes_finish] using hst.bytes hsends
  | flushed hpeer => rw [storedBytes_finish, Download.Idle.bytes (.inl ⟨rfl, rfl⟩)]

theorem Change.stored (hc : Change decrypt d e d' os) :
    storedBytes os = if d.state.decryptedFile.started then [] else d.brings e := by
  cases hc with
  | started hphase => exact (ite_self _).symm
  | offered hpeer => exact (ite_self _).symm
  | opened hpeer hconnects => exact (ite_self _).symm
  | peerError herror hidle => exact (Download.Idle.bytes (.inl hidle)).symm
  | handled hh hafter => rw [storedBytes_append, hafter.quiet.2.2, List.append_nil, hh.stored]
  | finished hphase => exact (ite_self _).symm
  | relayRequest hrelay hoff => exact (ite_self _).symm
  | relayResponse hrelay => exact (ite_self _).symm
  | relayRetry hrelay => exact (ite_self _).symm
  | @relayStored offset downloaded data file hrelay hwrite =>
    rcases DecryptedFile.writeAll_ok hwrite with ⟨_, rfl⟩ | ⟨buffer, hbuffer, _⟩
    · exact (ite_self _).symm
    · rw [if_neg (by simp [DecryptedFile.started, hbuffer])]
      simp [storedBytes, Output.bytes, Download.brings]
  | relayPolled hidle htask hrelay hfile hst => exact (Download.Idle.bytes (.inl hidle)).symm
  | relayClosed hidle hfile hcomplete => exact (Download.Idle.bytes (.inl hidle)).symm
  | relayError hidle hfile hos => rw [storedBytes_progress hos, Download.Idle.bytes hidle]
  | relayPanicked hidle hfile hoff hos => rw [storedBytes_progress hos, Download.Idle.bytes hidle]

theorem Sound.received_le_iff (hs : Sound decrypt fileSize tr d)
    (hc : Change decrypt d e d' os) :
    (received (tr ++ [(e, os)])).length ≤ ciphertextLen fileSize ↔
      (received tr).length ≤ ciphertextLen fileSize ∧ d.Fits e := by
  rw [received_snoc, hc.stored, List.length_append]
  cases hst : d.state.decryptedFile.started with
  | true =>
    have hlen := hs.stores.started hst
    rw [hs.size] at hlen
    have hfits : d.Fits e := by
      intro buffer hbuffer
      simp [DecryptedFile.started, hbuffer] at hst
    simp [hlen, hfits]
  | false =>
    obtain ⟨buffer, hbuffer⟩ := DecryptedFile.started_eq_false hst
    obtain rfl := hs.stores.unwritten hbuffer
    have hfits : d.Fits e ↔ (received tr).length + (d.brings e).length ≤ ciphertextLen fileSize := by
      rw [← hs.size]
      constructor
      · intro h
        exact h _ hbuffer
      · intro h buffer' hbuffer'
        rw [hbuffer] at hbuffer'
        obtain rfl := DecryptedFileWriteState.unwritten.inj hbuffer'
        exact h
    rw [hfits]
    simp only [Bool.false_eq_true, if_false]
    omega

theorem Sound.completed_iff (hs : Sound decrypt fileSize tr d) (hok : d.phase.succeeds = true) :
    d.Completed decrypt fileSize tr ↔ (received tr).length ≤ ciphertextLen fileSize := by
  constructor
  · rintro ⟨_, hlen, _⟩
    exact Nat.le_of_eq hlen
  · intro hle
    rcases hs.succeeds hok with hcomplete | ⟨data, hdata, hlt⟩
    · have hst : d.state.decryptedFile.started = true := by
        simp [DecryptedFile.started, hcomplete]
      exact ⟨hcomplete, (hs.stores.started hst).trans hs.size, hs.stores.complete hcomplete⟩
    · obtain rfl := hs.stores.unwritten hdata
      rw [hs.size] at hlt
      exact absurd hle (Nat.not_le.mpr hlt)

/-- Of the runs that resolve to `Ok`, those are complete in which no relay chunk and no
accepted response has taken the buffer past `file_size`. -/
theorem ok_is_complete (h : (downloadAsync decrypt transport fileSize).Run tr d)
    (hok : d.phase = .resolved (.ok ())) :
    d.Completed decrypt fileSize tr ↔
      (downloadAsync decrypt transport fileSize).Path Download.Fits
        (.spawn transport fileSize) tr d := by
  rw [(run_sound h).completed_iff (by rw [hok]; rfl)]
  refine EventMachine.Path.guarded_iff_history
    (P := fun tr _ => (received tr).length ≤ ciphertextLen fileSize) h (Nat.zero_le _) ?_
  intro tr t e v os hpath hstep
  exact (run_sound hpath).received_le_iff (Download.step_change hstep)

theorem ok_is_complete_relayed :
    ∃ tr d, d.Completed unframe 1 tr ∧
      (downloadAsync unframe .relay 1).Path Download.Fits (.spawn .relay 1) tr d := by
  obtain ⟨tr, d, hexec, hok, hcomplete⟩ : ∃ tr d,
      (downloadAsync unframe .relay 1).exec (.spawn .relay 1)
        [.relayRequest, .relayResponse, .relayChunk (List.replicate 29 0),
          .relayEnd [.ready 0, .ready 1, .pending], .relayFlush [.ready 0, .ready 0]] =
        some (tr, d) ∧ d.phase = .resolved (.ok ()) ∧ d.Completed unframe 1 tr :=
    ⟨_, _, rfl, rfl, rfl, rfl, rfl, rfl, rfl⟩
  have hrun := EventMachine.exec_run _ hexec
  exact ⟨tr, d, hcomplete, (ok_is_complete hrun hok).mp hcomplete⟩

/-- A p2p download of an empty file that receives one byte too many resolves to `Ok` with
nothing written. -/
theorem ok_incomplete :
    ∃ tr d, (downloadAsync unframe .p2p 0).Run tr d ∧ d.phase = .resolved (.ok ()) ∧
      d.state.decryptedFile.file = .empty ∧ ¬ d.Completed unframe 0 tr := by
  obtain ⟨tr, d, hexec, hok, hfile, hstate⟩ : ∃ tr d,
      (downloadAsync unframe .p2p 0).exec (.spawn .p2p 0)
        [.started true, .offered true, .peerOpened none [], .peerMessage (some .hello) none [],
          .peerMessage (some (.dataResponse 0 (List.replicate 29 0))) none [], .finished true] =
        some (tr, d) ∧ d.phase = .resolved (.ok ()) ∧ d.state.decryptedFile.file = .empty ∧
        d.state.decryptedFile.state = .unwritten (List.replicate 29 0) :=
    ⟨_, _, rfl, rfl, rfl, rfl⟩
  refine ⟨tr, d, EventMachine.exec_run _ hexec, hok, hfile, fun h => ?_⟩
  rw [h.1] at hstate
  cases hstate

end Glopfile.Client

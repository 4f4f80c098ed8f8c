import Glopfile.Client.DownloaderSteps

/-!
# Two tasks write one buffer

A p2p response is stored only at the offset it names. The relay task appends what it streams
wherever the buffer ends, so that its stream must stand there: where its request began, plus
what it has streamed since. A p2p attempt beside it moves the end of the buffer when it stores
a response; then the relay task is dropped, except when the attempt fails all the same. In this
`continuing` phase the stream may be behind the buffer.
-/

namespace Glopfile.Client

open EventMachine (Trace)

def RelayTask.position : RelayTask → Option ℕ
  | .requesting contentOffset => some contentOffset
  | .streaming contentOffset contentDownloaded => some (contentOffset + contentDownloaded)
  | _ => none

def Phase.undisturbed : Phase → Option RelayTask
  | .fallback _ relay | .relaying relay => some relay
  | _ => none

def Serves (ciphertext : List UInt8) (d : Download) : Event → Prop
  | .relayChunk data => ∀ position, d.phase.relay.bind RelayTask.position = some position →
      data <+: ciphertext.drop position
  | .peerMessage (some (.dataResponse offset data)) _ _ => data <+: ciphertext.drop offset
  | _ => True

/-- A relay task that outlived a p2p attempt brings bytes only for the end of the buffer. -/
def InStep (d : Download) : Event → Prop
  | .relayChunk data => ∀ relay buffer, d.phase = .continuing relay →
      d.state.decryptedFile.state = .unwritten buffer → data ≠ [] →
      relay.position = some buffer.length
  | _ => True

structure Prefixed (ciphertext : List UInt8) (d : Download) : Prop where
  buffer : ∀ buffer, d.state.decryptedFile.state = .unwritten buffer → buffer <+: ciphertext
  relay : ∀ buffer task position, d.state.decryptedFile.state = .unwritten buffer →
    d.phase.undisturbed = some task → task.position = some position → position = buffer.length

variable {decrypt : List UInt8 → Option (List UInt8)} {transport : Transport} {fileSize : ℕ}
  {ciphertext : List UInt8} {d d' : Download} {e : Event} {os : List Output}
  {tr : Trace Event Output}

theorem prefix_append_drop {buffer data : List UInt8} (hbuffer : buffer <+: ciphertext)
    (hdata : data <+: ciphertext.drop buffer.length) : buffer ++ data <+: ciphertext := by
  obtain ⟨rest, rfl⟩ := hbuffer
  rw [List.drop_left] at hdata
  exact (List.prefix_append_right_inj buffer).mpr hdata

section Phases

@[simp] theorem Phase.setPeer_undisturbed (phase : Phase) (task : PeerTask) :
    (phase.setPeer task).undisturbed = phase.undisturbed := by
  cases phase <;> rfl

theorem Phase.setRelay_undisturbed {phase : Phase} {task task' : RelayTask}
    (h : (phase.setRelay task).undisturbed = some task') :
    task' = task ∧ phase.undisturbed = phase.relay := by
  cases phase with
  | fallback peer relay => exact ⟨(Option.some.inj h).symm, rfl⟩
  | relaying relay => exact ⟨(Option.some.inj h).symm, rfl⟩
  | _ => cases h

theorem Phase.relay_cases {phase : Phase} {task : RelayTask} (h : phase.relay = some task) :
    phase.undisturbed = some task ∨ phase = .continuing task := by
  cases phase with
  | fallback peer relay => exact .inl h
  | relaying relay => exact .inl h
  | continuing relay => exact .inr (congrArg _ (Option.some.inj h))
  | _ => cases h

theorem Phase.AfterError.undisturbed {phase next : Phase} {offset : Option ℕ} {error : Error}
    {task : RelayTask} (h : phase.AfterError offset error next)
    (htask : next.undisturbed = some task) : task.position = none := by
  cases h with
  | fallback => rw [← Option.some.inj htask]; rfl
  | relaying => rw [← Option.some.inj htask]; rfl
  | resolved => cases htask
  | panicked => cases htask
  | continuing => cases htask

theorem Phase.AfterAwait.undisturbed {phase next : Phase} {offset : Option ℕ} {result : Await}
    {outputs : List Output} {task : RelayTask} (h : phase.AfterAwait offset result next outputs)
    (htask : next.undisturbed = some task) : task.position = none ∨ result = .flushing := by
  cases h with
  | connected => cases htask
  | poisoned => cases htask
  | ended => cases htask
  | received => cases htask
  | transferred => cases htask
  | failed herror => exact .inl (herror.undisturbed htask)
  | flushing => exact .inr rfl
  | panicked => cases htask

end Phases

section Handler
variable {h : Handled} {buffer : List UInt8}

theorem finish_unwritten {s : DownloadState} {sends : Option ℕ} {io : List IoResult}
    (hbuffer : (s.finish decrypt sends io).state.decryptedFile.state = .unwritten buffer) :
    s.decryptedFile.state = .unwritten buffer ∧ (s.finish decrypt sends io).result ≠ .flushing := by
  obtain ⟨g, polled, hflush, hstate, hcases⟩ := finish_cases decrypt s sends io
  rw [hstate] at hbuffer
  have hnot : g.started ≠ true := Bool.eq_false_iff.mp (DecryptedFile.started_unwritten hbuffer)
  have hresult := DecryptedFile.pollFlush_result hflush
  constructor
  · rcases DecryptedFile.pollFlush_started hflush with hst | rfl
    · exact absurd hst hnot
    · exact hbuffer
  · rcases hcases with ⟨rfl, _⟩ | ⟨_, _, h, _⟩ | ⟨_, h, _⟩ | ⟨_, h, _⟩ | ⟨_, h, _⟩
    · exact absurd hresult.1 hnot
    all_goals simp [h]

theorem Stored.unwritten {file : DecryptedFile} {outputs : List Output}
    (hst : Stored d e file outputs) (hbuffer : file.state = .unwritten buffer) :
    ∃ before, d.state.decryptedFile.state = .unwritten before ∧
      buffer = before ++ (d.accepts e).getD [] := by
  cases hst with
  | nothing hacc => exact ⟨buffer, hbuffer, by rw [hacc, Option.getD_none, List.append_nil]⟩
  | response hoff hacc hwrite =>
    rw [hacc]
    rcases DecryptedFile.writeAll_ok hwrite with ⟨rfl, rfl⟩ | ⟨before, hbefore, rfl⟩
    · exact ⟨buffer, hbuffer, (List.append_nil _).symm⟩
    · exact ⟨before, hbefore, (DecryptedFileWriteState.unwritten.inj hbuffer).symm⟩

theorem Handles.unwritten (hh : Handles decrypt d e h)
    (hbuffer : h.state.decryptedFile.state = .unwritten buffer) :
    h.result ≠ .flushing ∧ ∃ before, d.state.decryptedFile.state = .unwritten before ∧
      (buffer = before ∨ buffer = before ++ (d.accepts e).getD []) := by
  cases hh with
  | ignored => exact ⟨by simp, buffer, hbuffer, .inl rfl⟩
  | refused => exact ⟨by simp, buffer, hbuffer, .inl rfl⟩
  | poisoned => exact ⟨by simp, buffer, hbuffer, .inl rfl⟩
  | @requests _ sends file outputs received hsends hst hoff hlt =>
    obtain ⟨hfile, _, hresult⟩ := DownloadState.requestData_frame received
      (d.state.totalLen - d.state.requestedOffset + 1)
      { d.state with decryptedFile := file } sends
    simp only [Handled.after, hfile] at hbuffer
    obtain ⟨before, hbefore, heq⟩ := hst.unwritten hbuffer
    refine ⟨?_, before, hbefore, .inr heq⟩
    rcases hresult with h | h | h
    all_goals simp [Handled.after, h]
  | finishes hsends hst hoff hle =>
    obtain ⟨hfile, hresult⟩ := finish_unwritten hbuffer
    obtain ⟨before, hbefore, heq⟩ := hst.unwritten hfile
    exact ⟨hresult, before, hbefore, .inr heq⟩
  | flushed hpeer =>
    obtain ⟨hfile, hresult⟩ := finish_unwritten hbuffer
    exact ⟨hresult, buffer, hfile, .inl rfl⟩

theorem Serves.accepts (hserves : Serves ciphertext d e) {before : List UInt8}
    (hbefore : d.state.decryptedFile.state = .unwritten before) :
    (d.accepts e).getD [] <+: ciphertext.drop before.length := by
  cases hacc : d.accepts e with
  | none => exact List.nil_prefix
  | some data =>
    obtain ⟨offset, sends, io, rfl, hoff⟩ := Download.accepts_eq_some hacc
    have hlen : d.offset = some before.length := DecryptedFile.offset_unwritten hbefore
    obtain rfl := Option.some.inj (hoff.symm.trans hlen)
    exact hserves

end Handler

theorem spawn_prefixed : Prefixed ciphertext (.spawn transport fileSize) where
  buffer buffer hbuffer := by
    rw [← DecryptedFileWriteState.unwritten.inj hbuffer]
    exact List.nil_prefix
  relay buffer task position hbuffer htask hposition := by
    cases transport with
    | both => cases htask
    | p2p => cases htask
    | relay =>
      rw [← Option.some.inj htask] at hposition
      cases hposition

theorem Prefixed.quiet (hp : Prefixed ciphertext d) {phase : Phase}
    (hphase : ∀ task position, phase.undisturbed = some task → task.position = some position →
      ∃ task, d.phase.undisturbed = some task ∧ task.position = some position) :
    Prefixed ciphertext (d.setPhase phase) where
  buffer := hp.buffer
  relay buffer task position hbuffer htask hposition := by
    obtain ⟨task', htask', hposition'⟩ := hphase task position htask hposition
    exact hp.relay buffer task' position hbuffer htask' hposition'

theorem Prefixed.polled (hp : Prefixed ciphertext d) {file : DecryptedFile}
    (hfile : Flushed decrypt d.state.decryptedFile file) {phase : Phase}
    (hphase : phase.undisturbed = none ∨ file.started = true) :
    Prefixed ciphertext ((d.setFile file).setPhase phase) where
  buffer buffer hbuffer := by
    rcases hfile.started with rfl | hst
    · exact hp.buffer buffer hbuffer
    · cases (DecryptedFile.started_unwritten hbuffer).symm.trans hst
  relay buffer task position hbuffer htask hposition := by
    rcases hphase with hnone | hst
    · rw [Download.setPhase_phase, hnone] at htask
      cases htask
    · cases (DecryptedFile.started_unwritten hbuffer).symm.trans hst

theorem Prefixed.stored (hp : Prefixed ciphertext d) {offset downloaded : ℕ} {data : List UInt8}
    (hrelay : d.phase.relay = some (.streaming offset downloaded))
    (hserves : Serves ciphertext d (.relayChunk data)) (hstep : InStep d (.relayChunk data))
    {buffer : List UInt8} (hbuffer : d.state.decryptedFile.state = .unwritten buffer) :
    buffer ++ data <+: ciphertext ∧
      (d.phase.undisturbed = d.phase.relay → offset + downloaded = buffer.length) := by
  have hundisturbed (h : d.phase.undisturbed = some (.streaming offset downloaded)) :
      offset + downloaded = buffer.length := hp.relay buffer _ _ hbuffer h rfl
  refine ⟨?_, fun h => hundisturbed (h.trans hrelay)⟩
  by_cases hdata : data = []
  · rw [hdata, List.append_nil]
    exact hp.buffer buffer hbuffer
  · have hposition : (RelayTask.streaming offset downloaded).position = some buffer.length := by
      rcases Phase.relay_cases hrelay with h | h
      · exact congrArg some (hundisturbed h)
      · exact hstep _ buffer h hbuffer hdata
    have hchunk := hserves buffer.length (by rw [hrelay]; exact hposition)
    exact prefix_append_drop (hp.buffer buffer hbuffer) hchunk

theorem Prefixed.change (hp : Prefixed ciphertext d) (hserves : Serves ciphertext d e)
    (hstep : InStep d e) (hc : Change decrypt d e d' os) : Prefixed ciphertext d' := by
  cases hc with
  | @started ok hphase =>
    refine hp.quiet fun task position htask _ => ?_
    cases ok <;> cases htask
  | offered hpeer =>
    refine hp.quiet fun task position htask hposition => ⟨task, ?_, hposition⟩
    rwa [Phase.setPeer_undisturbed] at htask
  | opened hpeer hconnects => exact hp
  | peerError herror hidle =>
    refine hp.quiet fun task position htask hposition => ?_
    rw [herror.undisturbed htask] at hposition
    cases hposition
  | @handled _ h phase outputs hh haw =>
    refine ⟨fun buffer hbuffer => ?_, fun buffer task position hbuffer htask hposition => ?_⟩
    · obtain ⟨_, before, hbefore, rfl | rfl⟩ := hh.unwritten hbuffer
      · exact hp.buffer _ hbefore
      · exact prefix_append_drop (hp.buffer before hbefore) (hserves.accepts hbefore)
    · rcases haw.undisturbed htask with hnone | hflushing
      · rw [hnone] at hposition
        cases hposition
      · exact absurd hflushing (hh.unwritten hbuffer).1
  | finished hphase => exact hp.quiet fun task position htask _ => by cases htask
  | @relayRequest offset hrelay hoff =>
    refine ⟨hp.buffer, fun buffer task position hbuffer htask hposition => ?_⟩
    obtain ⟨rfl, _⟩ := Phase.setRelay_undisturbed htask
    have hlen : d.offset = some buffer.length := DecryptedFile.offset_unwritten hbuffer
    obtain rfl := Option.some.inj (hoff.symm.trans hlen)
    exact (Option.some.inj hposition).symm
  | @relayResponse offset hrelay =>
    refine hp.quiet fun task position htask hposition => ?_
    obtain ⟨rfl, hsame⟩ := Phase.setRelay_undisturbed htask
    exact ⟨_, hsame.trans hrelay, hposition⟩
  | relayRetry hrelay =>
    refine hp.quiet fun task position htask hposition => ?_
    obtain ⟨rfl, _⟩ := Phase.setRelay_undisturbed htask
    cases hposition
  | @relayStored offset downloaded data file hrelay hwrite =>
    rcases DecryptedFile.writeAll_ok hwrite with ⟨rfl, rfl⟩ | ⟨before, hbefore, rfl⟩
    · refine ⟨hp.buffer, fun buffer task position hbuffer htask hposition => ?_⟩
      obtain ⟨rfl, hsame⟩ := Phase.setRelay_undisturbed htask
      exact hp.relay buffer _ position hbuffer (hsame.trans hrelay) hposition
    · obtain ⟨hserved, hend⟩ := hp.stored hrelay hserves hstep hbefore
      refine ⟨fun buffer hbuffer => ?_, fun buffer task position hbuffer htask hposition => ?_⟩
      · rwa [← DecryptedFileWriteState.unwritten.inj hbuffer]
      · obtain ⟨rfl, hsame⟩ := Phase.setRelay_undisturbed htask
        rw [← DecryptedFileWriteState.unwritten.inj hbuffer, ← Option.some.inj hposition,
          List.length_append, ← hend hsame, Nat.add_assoc]
  | relayPolled hidle htask hrelay hfile hst => exact hp.polled hfile (.inr hst)
  | relayClosed hidle hfile hcomplete => exact hp.polled hfile (.inl rfl)
  | relayError hidle hfile hos => exact hp.polled hfile (.inl rfl)
  | relayPanicked hidle hfile hoff hos => exact hp.polled hfile (.inl rfl)

/-- The buffer is a prefix of the ciphertext in every run in which no relay task that outlived
a p2p attempt brings bytes for another offset than the end of the buffer. -/
theorem buffer_is_prefix
    (h : (downloadAsync decrypt transport fileSize).Path
      (fun d e => Serves ciphertext d e ∧ InStep d e) (.spawn transport fileSize) tr d)
    {buffer : List UInt8} (hbuffer : d.state.decryptedFile.state = .unwritten buffer) :
    buffer <+: ciphertext :=
  (EventMachine.Path.invariant (P := Prefixed ciphertext) h spawn_prefixed
    fun _ _ _ _ hp hguard hstep =>
      hp.change hguard.1 hguard.2 (Download.step_change hstep)).buffer buffer hbuffer

theorem buffer_is_prefix_continued :
    ∃ d : Download, d.phase = .continuing (.streaming 0 2) ∧
      d.state.decryptedFile.state = .unwritten [1, 2] ∧ [1, 2] <+: 1 :: 2 :: List.replicate 26 (0 : UInt8) := by
  obtain ⟨tr, d, hexec, hphase, hbuffer, hpath⟩ : ∃ tr d,
      (downloadAsync unframe .both 0).exec (.spawn .both 0)
        [.started true, .offered false, .relayRequest, .relayResponse, .relayChunk [1],
          .offered true, .peerFailed, .relayChunk [2]] = some (tr, d) ∧
        d.phase = .continuing (.streaming 0 2) ∧
        d.state.decryptedFile.state = .unwritten [1, 2] ∧
        (downloadAsync unframe .both 0).Path
          (fun d e => Serves (1 :: 2 :: List.replicate 26 0) d e ∧ InStep d e)
          (.spawn .both 0) tr d := by
    refine ⟨_, _, rfl, rfl, rfl, ?_⟩
    refine .snoc (.snoc (.snoc (.snoc (.snoc (.snoc (.snoc (.snoc
      (.refl : EventMachine.Path _ _ _ [] _) ⟨trivial, trivial⟩ rfl) ⟨trivial, trivial⟩ rfl)
      ⟨trivial, trivial⟩ rfl) ⟨trivial, trivial⟩ rfl) ⟨?_, ?_⟩ rfl) ⟨trivial, trivial⟩ rfl)
      ⟨trivial, trivial⟩ rfl) ⟨?_, ?_⟩ rfl
    · rintro position ⟨⟩
      exact ⟨_, rfl⟩
    · rintro relay buffer ⟨⟩ ⟨⟩ -
      rfl
    · rintro position ⟨⟩
      exact ⟨_, rfl⟩
    · rintro relay buffer (hfallback : Phase.fallback _ _ = .continuing relay)
      cases hfallback
  exact ⟨d, hphase, hbuffer, buffer_is_prefix hpath hbuffer⟩

/-- A p2p attempt beside the relay task stores a byte and fails to send its next request; the
relay task then stores the same byte again. -/
theorem relay_stores_twice :
    ∃ tr d, (downloadAsync unframe .both 20000).Path (Serves (1 :: 2 :: List.replicate 20026 0))
        (.spawn .both 20000) tr d ∧
      d.state.decryptedFile.state = .unwritten [1, 1] ∧
      ¬ [1, 1] <+: 1 :: 2 :: List.replicate 20026 (0 : UInt8) := by
  obtain ⟨tr, d, hexec, hbuffer, hpath⟩ : ∃ tr d,
      (downloadAsync unframe .both 20000).exec (.spawn .both 20000)
        [.started true, .offered true, .peerOpened none [],
          .peerMessage (some .hello) (some 1) [], .relayRequest, .relayResponse, .offered true,
          .peerMessage (some (.dataResponse 0 [1])) (some 0) [], .relayChunk [1]] =
        some (tr, d) ∧ d.state.decryptedFile.state = .unwritten [1, 1] ∧
        (downloadAsync unframe .both 20000).Path
          (Serves (1 :: 2 :: List.replicate 20026 0)) (.spawn .both 20000) tr d := by
    refine ⟨_, _, rfl, rfl, ?_⟩
    refine .snoc (.snoc (.snoc (.snoc (.snoc (.snoc (.snoc (.snoc (.snoc
      (.refl : EventMachine.Path _ _ _ [] _) trivial rfl) trivial rfl) trivial rfl) trivial rfl)
      trivial rfl) trivial rfl) trivial rfl) ⟨_, rfl⟩ rfl) ?_ rfl
    rintro position ⟨⟩
    exact ⟨_, rfl⟩
  refine ⟨tr, d, hpath, hbuffer, ?_⟩
  rintro ⟨rest, hrest⟩
  cases hrest

end Glopfile.Client

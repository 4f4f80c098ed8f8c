import Glopfile.Client.Completion

/-!
# The file and the request window

Requests are counted by `requested_offset`, which p2p events alone advance, and compared with
the offset of a file that the relay task and responses of any length advance too. The window
of a run is what its p2p events have asked for; `next_data_request` finds a file ahead of the
requests exactly when an event runs its request loop on a file past the window.
-/

namespace Glopfile.Client

open EventMachine (Trace)

def Phase.panic : Phase → Option Panic
  | .panicked panic => some panic
  | _ => none

namespace Download

def requestsAt (d : Download) (e : Event) : Option (ℕ × Option ℕ) :=
  match d.requestSends e, d.offset with
  | some sends, some offset =>
    if offset + (d.brings e).length < d.state.totalLen then
      some (offset + (d.brings e).length, sends)
    else none
  | _, _ => none

def windowAfter (d : Download) (window : ℕ) (e : Event) : ℕ :=
  match d.requestsAt e with
  | some (received, sends) => reach d.state.totalLen received window sends
  | none => window

end Download

def windowed (decrypt : List UInt8 → Option (List UInt8)) (transport : Transport)
    (fileSize : ℕ) : EventMachine (Download × ℕ) Event Output :=
  (downloadAsync decrypt transport fileSize).withGhost 0 fun d window e _ =>
    d.windowAfter window e

/-- The request loop of an event does not start past the window. -/
def WithinWindow (p : Download × ℕ) (e : Event) : Prop :=
  ∀ received sends, p.1.requestsAt e = some (received, sends) → received ≤ p.2

variable {decrypt : List UInt8 → Option (List UInt8)} {transport : Transport} {fileSize : ℕ}
  {d d' : Download} {e : Event} {os : List Output} {tr : Trace Event Output}

section Phases

theorem Phase.peer_panic {phase : Phase} (h : phase.peer.isSome = true) : phase.panic = none := by
  cases phase with
  | panicked panic => cases h
  | _ => rfl

theorem Phase.relay_panic {phase : Phase} (h : phase.relay.isSome = true) :
    phase.panic = none := by
  cases phase with
  | panicked panic => cases h
  | _ => rfl

@[simp] theorem Phase.setPeer_panic (phase : Phase) (task : PeerTask) :
    (phase.setPeer task).panic = phase.panic := by
  cases phase <;> rfl

@[simp] theorem Phase.setRelay_panic (phase : Phase) (task : RelayTask) :
    (phase.setRelay task).panic = phase.panic := by
  cases phase <;> rfl

theorem Phase.AfterError.panic {phase next : Phase} {offset : Option ℕ} {error : Error}
    (h : phase.AfterError offset error next) :
    next.panic = none ∨ next.panic = some .invalidState ∧ offset = none := by
  cases h with
  | panicked hoff => exact .inr ⟨rfl, hoff⟩
  | fallback => exact .inl rfl
  | relaying => exact .inl rfl
  | resolved => exact .inl rfl
  | continuing => exact .inl rfl

theorem Phase.AfterAwait.panic {phase next : Phase} {offset : Option ℕ} {result : Await}
    {outputs : List Output} (h : phase.AfterAwait offset result next outputs) :
    (∃ panic, result = .panicked panic ∧ next.panic = some panic) ∨
      (∀ panic, result ≠ .panicked panic) ∧
        (next.panic = none ∨ next.panic = some .invalidState ∧ offset = none) := by
  cases h with
  | connected => exact .inr ⟨by simp, .inl rfl⟩
  | poisoned _ hoff => exact .inr ⟨by simp, .inr ⟨rfl, hoff⟩⟩
  | ended => exact .inr ⟨by simp, .inl rfl⟩
  | received => exact .inr ⟨by simp, .inl rfl⟩
  | transferred => exact .inr ⟨by simp, .inl rfl⟩
  | failed herror => exact .inr ⟨by simp, herror.panic⟩
  | flushing hpeer => exact .inr ⟨by simp, .inl (by simp [Phase.peer_panic hpeer])⟩
  | @panicked panic => exact .inl ⟨panic, rfl, rfl⟩

end Phases

section Handler
variable {h : Handled}

theorem requestsAt_idle (hidle : d.requestSends e = none) : d.requestsAt e = none := by
  simp [Download.requestsAt, hidle]

theorem requestsAt_started (htotal : d.state.totalLen = d.state.decryptedFile.fileSize)
    (hst : d.state.decryptedFile.started = true) : d.requestsAt e = none := by
  unfold Download.requestsAt
  cases d.requestSends e with
  | none => rfl
  | some sends =>
    cases hoff : d.offset with
    | none => rfl
    | some offset =>
      have hsize := offset_started hst hoff
      simp only
      rw [if_neg (by omega)]

theorem finish_panics {s : DownloadState} {sends : Option ℕ} {io : List IoResult} (panic : Panic)
    (hresult : (s.finish decrypt sends io).result = .panicked panic) :
    panic = .invalidState ∧ (s.finish decrypt sends io).state.decryptedFile.offset = none := by
  obtain ⟨g, polled, hflush, hstate, hcases⟩ := finish_cases decrypt s sends io
  have hend := DecryptedFile.pollFlush_result hflush
  rcases hcases with ⟨_, h, _⟩ | ⟨_, _, h, _⟩ | ⟨rfl, h, _⟩ | ⟨_, h, _⟩ | ⟨_, h, _⟩
  any_goals rw [h] at hresult; cases hresult
  obtain ⟨rfl, hpoisoned⟩ := hend
  rw [hstate]
  exact ⟨rfl, offset_poisoned.mpr hpoisoned⟩

theorem Stored.requestsAt {file : DecryptedFile} {outputs : List Output} {sends : Option ℕ}
    {received : ℕ} (hst : Stored d e file outputs) (hsends : d.requestSends e = some sends)
    (hoff : file.offset = some received) :
    d.requestsAt e = if received < d.state.totalLen then some (received, sends) else none := by
  have hoffset := hst.offset
  rw [hoff, ← Download.brings_eq hsends] at hoffset
  obtain ⟨offset, hd, rfl⟩ := Option.map_eq_some_iff.mp hoffset.symm
  simp only [Download.requestsAt, hsends, hd]

theorem Handles.window (hh : Handles decrypt d e h)
    (htotal : d.state.totalLen = d.state.decryptedFile.fileSize) :
    (∃ received sends, d.requestsAt e = some (received, sends) ∧
      ((received ≤ d.state.requestedOffset ∧ (∀ panic, h.result ≠ .panicked panic) ∧
          h.state.requestedOffset =
            reach d.state.totalLen received d.state.requestedOffset sends) ∨
        (d.state.requestedOffset < received ∧ h.result = .panicked .requestedOffset))) ∨
    (d.requestsAt e = none ∧ h.state.requestedOffset = d.state.requestedOffset ∧
      ∀ panic, h.result = .panicked panic →
        panic = .invalidState ∧ h.state.decryptedFile.offset = none) := by
  cases hh with
  | ignored hconnects hidle => exact .inr ⟨requestsAt_idle hidle.2, rfl, by simp⟩
  | refused hidle =>
    rcases hidle with hidle | hst
    · exact .inr ⟨requestsAt_idle hidle.2, rfl, by simp⟩
    · exact .inr ⟨requestsAt_started htotal hst, rfl, by simp⟩
  | poisoned hoff =>
    have hst : d.state.decryptedFile.started = true := by
      simp [DecryptedFile.started, offset_poisoned.mp hoff]
    exact .inr ⟨requestsAt_started htotal hst, rfl, fun panic hp => ⟨by cases hp; rfl, hoff⟩⟩
  | @requests _ sends file outputs received hsends hst hoff hlt =>
    refine .inl ⟨received, sends, by rw [hst.requestsAt hsends hoff, if_pos hlt], ?_⟩
    by_cases hle : received ≤ d.state.requestedOffset
    · obtain ⟨hstate, hresult⟩ := DownloadState.requestData_reach
        (s := { d.state with decryptedFile := file }) sends hle
        (Nat.lt_succ_self (d.state.totalLen - d.state.requestedOffset))
      refine .inl ⟨hle, fun panic => ?_, ?_⟩
      · simp only [Handled.after, hresult]
        split_ifs <;> simp
      · simp only [Handled.after, hstate]
    · exact .inr ⟨Nat.not_le.mp hle, congrArg Handled.result
        (DownloadState.requestData_overrun (s := { d.state with decryptedFile := file })
          (Nat.not_le.mp hle))⟩
  | @finishes _ sends io file outputs received hsends hst hoff hle =>
    refine .inr ⟨by rw [hst.requestsAt hsends hoff, if_neg (Nat.not_lt.mpr hle)], ?_, ?_⟩
    · obtain ⟨_, _, _, hstate, _⟩ :=
        finish_cases decrypt { d.state with decryptedFile := file } sends io
      simp only [Handled.after, hstate]
    · exact finish_panics
  | @flushed sends io hpeer =>
    refine .inr ⟨rfl, ?_, finish_panics⟩
    obtain ⟨_, _, _, hstate, _⟩ := finish_cases decrypt d.state sends io
    rw [hstate]

end Handler

/-- A step overruns the requests exactly when its event is past the window. Any other panic
is that of a poisoned file. -/
theorem Change.window (hc : Change decrypt d e d' os)
    (htotal : d.state.totalLen = d.state.decryptedFile.fileSize) :
    (d'.phase.panic = some .requestedOffset ∧
        ¬ WithinWindow (d, d.state.requestedOffset) e) ∨
      ((d'.phase.panic = none ∨
          d'.phase.panic = some .invalidState ∧ d'.state.decryptedFile.offset = none) ∧
        WithinWindow (d, d.state.requestedOffset) e ∧
        d'.state.requestedOffset = d.windowAfter d.state.requestedOffset e) := by
  -- An event that reaches no request loop.
  have hquiet (hat : d.requestsAt e = none)
      (hreq : d'.state.requestedOffset = d.state.requestedOffset)
      (hpanic : d'.phase.panic = none ∨
        d'.phase.panic = some .invalidState ∧ d'.state.decryptedFile.offset = none) :
      (d'.phase.panic = none ∨
          d'.phase.panic = some .invalidState ∧ d'.state.decryptedFile.offset = none) ∧
        WithinWindow (d, d.state.requestedOffset) e ∧
        d'.state.requestedOffset = d.windowAfter d.state.requestedOffset e := by
    refine ⟨hpanic, fun received sends h => ?_, ?_⟩
    · rw [hat] at h
      cases h
    · simp only [hreq, Download.windowAfter, hat]
  have hidle (h : d.Idle e ∨ d.state.decryptedFile.started = true) : d.requestsAt e = none := by
    rcases h with hidle | hst
    · exact requestsAt_idle hidle.2
    · exact requestsAt_started htotal hst
  cases hc with
  | @started ok hphase => exact .inr (hquiet rfl rfl (by cases ok <;> exact .inl rfl))
  | offered hpeer =>
    have hnone : d.phase.panic = none := Phase.peer_panic (by rw [hpeer]; rfl)
    exact .inr (hquiet rfl rfl (.inl (by simpa using hnone)))
  | opened hpeer hconnects =>
    have hnone : d.phase.panic = none := Phase.peer_panic (by rw [hpeer]; rfl)
    exact .inr (hquiet (requestsAt_idle (if_pos hconnects)) rfl (.inl hnone))
  | peerError herror hid => exact .inr (hquiet (hidle (.inl hid)) rfl herror.panic)
  | @handled _ h phase outputs hh haw =>
    rcases hh.window htotal with ⟨received, sends, hat, ⟨hle, hres, hreq⟩ | ⟨hlt, hres⟩⟩ |
      ⟨hat, hreq, hres⟩
    · refine .inr ⟨?_, fun received' sends' h' => ?_, ?_⟩
      · rcases haw.panic with ⟨panic, hpanic, _⟩ | ⟨_, hnone⟩
        · exact absurd hpanic (hres panic)
        · exact hnone
      · rw [hat] at h'
        obtain ⟨rfl, rfl⟩ := Prod.mk.inj (Option.some.inj h')
        exact hle
      · simp only [Download.windowAfter, hat, hreq]
    · refine .inl ⟨?_, fun hw => absurd (hw received sends hat) (Nat.not_le.mpr hlt)⟩
      rcases haw.panic with ⟨panic, hpanic, hphase⟩ | ⟨hnone, _⟩
      · rw [hres] at hpanic
        obtain rfl := Await.panicked.inj hpanic
        exact hphase
      · exact absurd hres (hnone _)
    · refine .inr (hquiet hat hreq ?_)
      rcases haw.panic with ⟨panic, hpanic, hphase⟩ | ⟨_, hnone⟩
      · obtain ⟨rfl, hoff⟩ := hres panic hpanic
        exact .inr ⟨hphase, hoff⟩
      · exact hnone
  | finished hphase => exact .inr (hquiet rfl rfl (.inl rfl))
  | relayRequest hrelay hoff =>
    have hnone : d.phase.panic = none := Phase.relay_panic (by rw [hrelay]; rfl)
    exact .inr (hquiet rfl rfl (.inl (by simpa using hnone)))
  | relayResponse hrelay =>
    have hnone : d.phase.panic = none := Phase.relay_panic (by rw [hrelay]; rfl)
    exact .inr (hquiet rfl rfl (.inl (by simpa using hnone)))
  | relayRetry hrelay =>
    have hnone : d.phase.panic = none := Phase.relay_panic hrelay
    exact .inr (hquiet rfl rfl (.inl (by simpa using hnone)))
  | relayStored hrelay hwrite =>
    have hnone : d.phase.panic = none := Phase.relay_panic (by rw [hrelay]; rfl)
    exact .inr (hquiet rfl rfl (.inl (by simpa using hnone)))
  | relayPolled hid htask hrelay hfile hst =>
    have hnone : d.phase.panic = none := Phase.relay_panic hrelay
    exact .inr (hquiet (hidle (.inl hid)) rfl (.inl (by simpa using hnone)))
  | relayClosed hid hfile hcomplete => exact .inr (hquiet (hidle (.inl hid)) rfl (.inl rfl))
  | relayError hid hfile hos => exact .inr (hquiet (hidle hid) rfl (.inl rfl))
  | relayPanicked hid hfile hoff hos => exact .inr (hquiet (hidle hid) rfl (.inr ⟨rfl, hoff⟩))

theorem Download.step_panic {r : Download × List Output} (h : d.step decrypt e = some r) :
    d.phase.panic = none := by
  cases hphase : d.phase with
  | panicked panic =>
    cases e <;> simp [Download.step, hphase, Phase.peer, Phase.relay] at h
  | _ => rfl

theorem spawn_panic : (Download.spawn transport fileSize).phase.panic = none := by
  cases transport <;> rfl

theorem run_total (h : (downloadAsync decrypt transport fileSize).Run tr d) :
    d.state.totalLen = d.state.decryptedFile.fileSize :=
  (run_sound h).total.trans (run_sound h).size.symm

theorem run_window {p : Download × ℕ} (h : (windowed decrypt transport fileSize).Run tr p) :
    p.1.phase.panic ≠ some .requestedOffset → p.1.state.requestedOffset = p.2 := by
  refine EventMachine.Path.history
    (P := fun _ p => p.1.phase.panic ≠ some .requestedOffset → p.1.state.requestedOffset = p.2)
    h (fun _ => rfl) ?_
  intro tr p e q os hpath ih _ hstep hpanic
  obtain ⟨hd, hw⟩ := EventMachine.withGhost_step.mp hstep
  have hreq := ih (by simp [Download.step_panic hd])
  rcases (Download.step_change hd).window (run_total hpath.forget) with
    ⟨hover, _⟩ | ⟨_, _, hafter⟩
  · exact absurd hover hpanic
  · rw [hafter, hw, hreq]

theorem run_overruns_iff {p q : Download × ℕ}
    (h : (windowed decrypt transport fileSize).Run tr p)
    (hstep : (windowed decrypt transport fileSize).step p e = some (q, os)) :
    q.1.phase.panic ≠ some .requestedOffset ↔
      p.1.phase.panic ≠ some .requestedOffset ∧ WithinWindow p e := by
  obtain ⟨hd, _⟩ := EventMachine.withGhost_step.mp hstep
  have hnone : p.1.phase.panic ≠ some .requestedOffset := by simp [Download.step_panic hd]
  have hp : (p.1, p.1.state.requestedOffset) = p := Prod.ext rfl (run_window h hnone)
  have hchange := (Download.step_change hd).window (run_total h.forget)
  rw [hp] at hchange
  rcases hchange with ⟨hover, hpast⟩ | ⟨hpanic, hwithin, _⟩
  · exact ⟨fun hne => absurd hover hne, fun hboth => absurd hboth.2 hpast⟩
  · refine ⟨fun _ => ⟨hnone, hwithin⟩, fun _ hover => ?_⟩
    rcases hpanic with hpanic | ⟨hpanic, _⟩
    · simp [hpanic] at hover
    · simp [hpanic] at hover

/-- `next_data_request` is called with `requested_offset < received_offset`, and panics, in
exactly the runs that handle an event past their window. Every other panic of a download is
that of a poisoned file. -/
theorem requests_stay_ahead (h : (downloadAsync decrypt transport fileSize).Run tr d) :
    (d.phase.panic ≠ some .requestedOffset ↔
      ∃ w, (windowed decrypt transport fileSize).Path WithinWindow
        (.spawn transport fileSize, 0) tr (d, w)) ∧
    (∀ panic, d.phase.panic = some panic →
      panic = .requestedOffset ∨ d.state.decryptedFile.state = .poisoned) := by
  constructor
  · obtain ⟨w, hrun⟩ := EventMachine.Path.withGhost h 0 0 fun d window e _ => d.windowAfter window e
    have hiff : d.phase.panic ≠ some .requestedOffset ↔
        (windowed decrypt transport fileSize).Path WithinWindow
          (.spawn transport fileSize, 0) tr (d, w) :=
      EventMachine.Path.guarded_iff_history
        (P := fun _ p => p.1.phase.panic ≠ some .requestedOffset) hrun
        (fun hpanic => by cases spawn_panic.symm.trans hpanic)
        fun tr p e q os hpath hstep => run_overruns_iff hpath hstep
    rw [hiff]
    constructor
    · exact fun hguarded => ⟨w, hguarded⟩
    · rintro ⟨w', hguarded⟩
      rwa [hrun.deterministic hguarded]
  · refine EventMachine.Path.history (P := fun _ d => ∀ panic, d.phase.panic = some panic →
      panic = .requestedOffset ∨ d.state.decryptedFile.state = .poisoned) h
      (fun _ hpanic => by cases spawn_panic.symm.trans hpanic) ?_
    intro tr d e d' os hpath _ _ hstep panic hpanic
    rcases (Download.step_change hstep).window (run_total hpath) with
      ⟨hover, _⟩ | ⟨hnone | ⟨hstate, hoff⟩, _⟩
    · exact .inl (Option.some.inj (hpanic.symm.trans hover))
    · rw [hnone] at hpanic
      cases hpanic
    · exact .inr (offset_poisoned.mp hoff)

/-- The relay writes ten bytes while the peers reconnect; the first message then panics. -/
theorem relay_overtakes_requests :
    ∃ tr d, (downloadAsync unframe .both 0).Run tr d ∧
      d.phase = .panicked .requestedOffset := by
  obtain ⟨tr, d, hexec, hphase⟩ : ∃ tr d,
      (downloadAsync unframe .both 0).exec (.spawn .both 0)
        [.started true, .offered true, .peerFailed, .relayRequest, .relayResponse,
          .relayChunk (List.replicate 10 0), .offered true, .peerOpened none [],
          .peerMessage (some .hello) none []] = some (tr, d) ∧
      d.phase = .panicked .requestedOffset := ⟨_, _, rfl, rfl⟩
  exact ⟨tr, d, EventMachine.exec_run _ hexec, hphase⟩

theorem requests_stay_ahead_reconnected :
    ∃ tr d w, d.phase = .transferring .receiving (some 10) ∧
      (windowed unframe .both 0).Path WithinWindow (.spawn .both 0, 0) tr (d, w) := by
  obtain ⟨tr, d, hexec, hphase⟩ : ∃ tr d,
      (downloadAsync unframe .both 0).exec (.spawn .both 0)
        [.started true, .offered true, .peerOpened none [], .peerMessage (some .hello) none [],
          .peerFailed, .relayRequest, .relayResponse, .relayChunk (List.replicate 10 0),
          .offered true, .peerMessage (some .hello) none []] = some (tr, d) ∧
      d.phase = .transferring .receiving (some 10) := ⟨_, _, rfl, rfl⟩
  have hahead := (requests_stay_ahead (EventMachine.exec_run _ hexec)).1
  obtain ⟨w, hguarded⟩ := hahead.mp (by simp [hphase, Phase.panic])
  exact ⟨tr, d, w, hphase, hguarded⟩

end Glopfile.Client

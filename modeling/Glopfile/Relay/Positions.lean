import Glopfile.Relay.Commands

/-!
# Positions of the two ends of a session

The conditions that tie together the positions of the downloader, the uploader and the
pending chunk are mutually inductive: each operation needs some of them to keep the
others. They hold of every session state, and with them every progress ack is the
position of the downloader it is about.
-/

namespace Glopfile.Relay

variable {s t : State} {downloader : Downloader} {token : Token} {position : Position}
  {chunk : Chunk} {reply : Waiter}

/-- What relates the positions in one state. `addU64` is the session's own addition, the
plain sum as long as nothing overflows. -/
structure PositionsAgree (s : State) : Prop where
  no_data : ∀ d chunk waiter position size, s.downloader = .connected d →
    s.pending ≠ .data chunk waiter position size
  level : ∀ d u, s.downloader = .connected d → s.uploader = some u → s.pending = .none →
    u.position = d.position
  held : ∀ u chunk waiter position size, s.uploader = some u →
    s.pending = .data chunk waiter position size → u.position = addU64 position size
  resume : ∀ d u x, s.downloader = .connected d → s.uploader = some u →
    s.pending = .error (.position x) → x = d.position

def AcksAt (position : Position) (os : List Effect) : Prop :=
  ∀ peer x, Effect.websocket peer (.progress x) ∈ os → x = position

@[simp] theorem acksAt_nil : AcksAt position [] := by simp [AcksAt]

@[simp] theorem acksAt_append {os os' : List Effect} :
    AcksAt position (os ++ os') ↔ AcksAt position os ∧ AcksAt position os' := by
  simp only [AcksAt, List.mem_append]
  grind

@[simp] theorem acksAt_event {events : Sender} {event : DownloadEvent} {os : List Effect} :
    AcksAt position (.event events event :: os) ↔ AcksAt position os := by
  simp [AcksAt]

@[simp] theorem acksAt_reply {waiter : Waiter} {r : Reply} {os : List Effect} :
    AcksAt position (.reply waiter r :: os) ↔ AcksAt position os := by
  simp [AcksAt]

@[simp] theorem acksAt_send {commands : Sender} {frame : Frame} {os : List Effect} :
    AcksAt position (.websocket commands (.send frame) :: os) ↔ AcksAt position os := by
  simp [AcksAt]

@[simp] theorem acksAt_replyTo {waiter : Option Waiter} {result : UploadResult} :
    AcksAt position (replyTo waiter result) := by
  cases waiter <;> simp [replyTo, replyUpload]

@[simp] theorem acksAt_sendUploadProgress {peer : Option WebsocketPeer} :
    AcksAt position (sendUploadProgress peer position) := by
  cases peer <;> simp [sendUploadProgress, AcksAt]

@[simp] theorem acksAt_replaceDownloader : AcksAt position s.replaceDownloader := by
  unfold State.replaceDownloader
  split <;> simp

@[simp] theorem acksAt_evictUploader : AcksAt position s.evictUploader.2 := by
  obtain ⟨waiter, hw⟩ := s.evictUploader_effects
  rw [hw]
  exact acksAt_replyTo

namespace PositionsAgree

theorem spawn {metadata : String} : PositionsAgree (Session.spawn metadata).state where
  no_data := by simp [Session.spawn]
  level := by simp [Session.spawn]
  held := by simp [Session.spawn]
  resume := by simp [Session.spawn]

theorem of_sameTransfer (h : PositionsAgree s) (hst : s.SameTransfer t) : PositionsAgree t := by
  obtain ⟨hd, hu, hp⟩ := hst
  obtain ⟨h1, h2, h3, h4⟩ := h
  constructor <;> simp only [hd, hu, hp] <;> assumption

theorem startDownload : PositionsAgree (s.startDownload downloader).1 := by
  have hpending := s.startDownload_pending downloader
  constructor
  · intro d chunk waiter position size _ hp
    rcases hpending with ⟨h, _⟩ | h <;> simp [h] at hp
  · intro d u hd hu hp
    simp only [State.startDownload_downloader, DownloaderSlot.connected.injEq] at hd
    simp only [State.startDownload_uploader] at hu
    rcases hpending with ⟨_, hlevel⟩ | h
    · rw [← hd, hlevel u hu]
    · simp [h] at hp
  · intro u chunk waiter position size _ hp
    rcases hpending with ⟨h, _⟩ | h <;> simp [h] at hp
  · intro d u x hd _ hp
    simp only [State.startDownload_downloader, DownloaderSlot.connected.injEq] at hd
    rcases hpending with ⟨h, _⟩ | h
    · simp [h] at hp
    · rw [h] at hp
      rw [← hd]
      simpa using hp.symm

theorem finishDownload (h : PositionsAgree s) :
    PositionsAgree (s.finishDownload reply).state := by
  have hheld := h.held
  rcases s.finishDownload_cases reply with
    ⟨u, hu, _, hf⟩ | ⟨hu, hf⟩ | ⟨u, chunk, waiter, position, size, hu, hp, hf⟩ <;>
  · rw [hf]
    constructor <;> simp <;> grind

theorem startUpload (h : PositionsAgree s) (token : Token) (position : Position) (reply : Waiter) :
    PositionsAgree (s.startUpload token position reply).1 := by
  rcases s.startUpload_cases token position reply with
    ⟨error, _, hs⟩ | ⟨hok, hs⟩
  · rw [hs]
    constructor
    · intro d chunk waiter position size hd hp
      obtain ⟨waiter', hp'⟩ := s.evictUploader_data hp
      exact h.no_data d chunk waiter' position size (by simpa using hd) hp'
    · simp
    · simp
    · simp
  · obtain ⟨hdown, hpend⟩ := s.evictUploader.1.checkStartPosition_eq_ok.mp hok
    rw [hs]
    constructor
    · intro d chunk waiter position size hd hp
      obtain ⟨waiter', hp'⟩ := s.evictUploader_data (Pending.eq_data_of_clearError hp)
      exact h.no_data d chunk waiter' position size (by simpa using hd) hp'
    · intro d u hd hu _
      simp only [Option.some.injEq] at hu
      rw [← hu]
      exact hdown d hd
    · intro u chunk waiter position size hu hp
      simp only [Option.some.injEq] at hu
      rw [← hu]
      exact hpend _ _ _ _ (Pending.eq_data_of_clearError hp)
    · intro d u x _ _ hp
      cases hq : s.evictUploader.1.pending <;> simp [hq] at hp

theorem uploadData (h : PositionsAgree s) (token : Token) (chunk : Chunk) (reply : Waiter) :
    PositionsAgree (s.uploadData token chunk reply).1 := by
  rcases s.uploadData_cases token chunk reply with
    ⟨_, hs⟩ | ⟨u, _, _, hp, ⟨d, _, hs⟩ | ⟨hd, hs⟩⟩
  · rw [hs]; exact h
  · rw [hs]
    constructor <;> simp [hp]
  · rw [hs]
    constructor <;> simp [hd]
    rintro _ _ _ _ _ rfl rfl rfl rfl rfl
    rfl

theorem flushUpload (h : PositionsAgree s) :
    PositionsAgree (s.flushUpload token reply).1 := by
  rcases s.flushUpload_cases token reply with
    ⟨_, hs⟩ | ⟨chunk, waiter, position, size, _, hp, hs⟩
  · rw [hs]; exact h
  · rw [hs]
    have hheld := h.held
    have hno := h.no_data
    constructor <;> simp <;> grind

theorem disconnected (h : PositionsAgree s) {peer : Peer} :
    PositionsAgree (s.disconnected token peer).1 := by
  have hheld := h.held
  have hno := h.no_data
  rcases s.disconnected_cases token peer with
    hs | ⟨_, _, _, ⟨_, hs⟩ | ⟨_, hs⟩⟩ | ⟨_, _, ⟨_, hs⟩ | ⟨_, hs⟩⟩ | ⟨direction, _, _, hs⟩
  · rw [hs]; exact h
  · rw [hs]; constructor <;> simp; grind
  · rw [hs]; constructor <;> simp; grind
  · rw [hs]; constructor <;> simp; grind
  · rw [hs]
    constructor
    · intro d chunk waiter position size hd hp
      exact hno d chunk waiter position size hd (Pending.eq_data_of_clearError hp)
    · simp
    · simp
    · simp
  · rw [hs]; exact h.of_sameTransfer (State.setWebsocket_sameTransfer _ _ _)

theorem handle (h : PositionsAgree s) (c : Command) : PositionsAgree (s.handle c).state := by
  cases c with
  | metadata reply => exact h
  | startDownload downloader reply => exact startDownload
  | finishDownload reply => exact h.finishDownload
  | checkStartUpload position reply => exact h
  | startUpload token position reply => exact h.startUpload token position reply
  | uploadData token chunk reply => exact h.uploadData token chunk reply
  | flushUpload token reply => exact h.flushUpload
  | startWebsocket direction peer reply =>
    exact h.of_sameTransfer (State.startWebsocket_sameTransfer _ _ _)
  | websocketData direction frame => exact h.of_sameTransfer (State.relayFrame_sameTransfer _ _ _)
  | disconnected token peer => exact h.disconnected

end PositionsAgree

theorem handle_acks (c : Command) {d : Downloader}
    (hd : (s.handle c).state.downloader = .connected d) :
    AcksAt d.position (s.handle c).effects := by
  have hc := s.handled c
  generalize s.handle c = o at hc hd ⊢
  cases hc with
  | released | downloads =>
    obtain rfl := DownloaderSlot.connected.inj hd
    simp
  | startRefused => simp [replyUpload]
  | starts hcheck =>
    obtain ⟨hdown, -⟩ := State.checkStartPosition_eq_ok.mp hcheck
    rw [← hdown d hd]
    simp [replyUpload]
  | relays =>
    obtain rfl := DownloaderSlot.connected.inj hd
    simp [replyUpload]
  | signals _ hos =>
    intro channel x hmem
    exact absurd hmem hos.progress
  | _ => simp

/-- In every session state the positions agree, whatever commands came in whatever order,
and the acks of the step that handles the next command are at the position of the
downloader it leaves connected. -/
theorem positions_agree {metadata : String} {tr : EventMachine.Trace Command Effect}
    {session : Session} (hrun : (sessionTask metadata).Run tr session) :
    PositionsAgree session.state ∧
      (∀ u chunk waiter position size, session.state.uploader = some u →
        session.state.pending = .data chunk waiter position size →
        position + size < 2 ^ 64 → u.position = position + size) ∧
      ∀ c next os, session.step c = some (next, os) →
        ∀ d, next.state.downloader = .connected d → AcksAt d.position os := by
  have hagree : PositionsAgree session.state := by
    refine hrun.invariant (P := fun session => PositionsAgree session.state)
      PositionsAgree.spawn ?_
    intro s c t os h _ hstep
    obtain ⟨_, rfl, _⟩ := Session.step_eq_some.mp hstep
    exact h.handle c
  refine ⟨hagree, ?_, ?_⟩
  · intro u chunk waiter position size hu hp hlt
    rw [hagree.held u chunk waiter position size hu hp]
    exact Nat.mod_eq_of_lt hlt
  · intro c next os hstep d hd
    obtain ⟨_, rfl, rfl⟩ := Session.step_eq_some.mp hstep
    exact handle_acks c hd

def heldThenReleased : List Command :=
  [.startWebsocket .upload ⟨3, 30⟩ 0, .startUpload 1 0 1,
    .uploadData 1 (.more ⟨0, [1, 2]⟩) 2, .startDownload ⟨2, 0, 20⟩ 3]

theorem positions_agree_released : ∃ tr session,
    (sessionTask "").exec (sessionTask "").init heldThenReleased =
        some (tr, session) ∧
      session.state.downloader = .connected ⟨2, 2, 20⟩ ∧ PositionsAgree session.state := by
  have hexec : (sessionTask "").exec (sessionTask "").init heldThenReleased = some (_, _) := rfl
  exact ⟨_, _, hexec, rfl, (positions_agree (EventMachine.exec_run _ hexec)).1⟩

end Glopfile.Relay

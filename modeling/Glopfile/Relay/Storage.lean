import Glopfile.Relay.Replies
import Glopfile.Relay.SystemSteps
import Mathlib.Algebra.BigOperators.Group.Finset.Piecewise
import Mathlib.Algebra.Order.BigOperators.Group.Finset

/-!
# The content a session stores

The relay holds the chunk in the pending slot, and the chunks on the channels of downloads
whose responses have not taken them yet. The pending slot makes an uploader wait; a channel
does not, since a chunk for a connected downloader is accepted whatever its channel holds.
A run stays within one chunk exactly if no chunk is accepted while another is held.
-/

namespace Glopfile.Relay

open EventMachine (Trace)

variable {metadata : String} {r r' : System} {e : SystemEvent} {os : List Output}
  {tr : Trace SystemEvent Output} {token : Token} {s : State} {c : Command}

def DownloadEvent.chunks : DownloadEvent → ℕ
  | .more _ | .final _ => 1
  | .connectionReplaced => 0

def chunksIn (channel : List DownloadEvent) : ℕ := (channel.map DownloadEvent.chunks).sum

def Pending.chunks : Pending → ℕ
  | .data _ _ _ _ => 1
  | _ => 0

/-- The state of a session that has ended is gone, with what was pending. -/
def Session.chunks (session : Session) : ℕ :=
  if session.running then session.state.pending.chunks else 0

def System.held (r : System) : ℕ :=
  r.session.chunks + ∑ token ∈ Finset.range r.fresh, chunksIn (r.channels token)

def State.AcceptsChunk (s : State) (c : Command) : Prop :=
  ∃ token chunk reply, c = .uploadData token chunk reply ∧ s.uploaderToken = some token ∧
    s.pending = .none

/-- The session task handles a chunk that it accepts, for a downloader whose response is
still there, or to be held for one. -/
def System.Stores (r : System) (e : SystemEvent) : Prop :=
  e = .turn ∧ r.session.running = true ∧ ∃ c rest, r.queue = c :: rest ∧
    r.session.state.AcceptsChunk c ∧
    ∀ downloader, r.session.state.downloader = .connected downloader →
      (r.downloads downloader.events).any DownloadTask.alive = true

/-- Chunks are accepted only when none is held. -/
def StoresOne (r : System) (e : SystemEvent) : Prop := r.Stores e → r.held = 0

@[simp] theorem chunksIn_nil : chunksIn [] = 0 := rfl

@[simp] theorem chunksIn_cons {event : DownloadEvent} {channel : List DownloadEvent} :
    chunksIn (event :: channel) = event.chunks + chunksIn channel := by
  simp [chunksIn]

@[simp] theorem chunksIn_append {channel channel' : List DownloadEvent} :
    chunksIn (channel ++ channel') = chunksIn channel + chunksIn channel' := by
  simp [chunksIn]

def System.stored (r : System) : Effect → ℕ
  | .event events event =>
    if (r.downloads events).any DownloadTask.alive then event.chunks else 0
  | _ => 0

def System.storedBy (r : System) (effects : List Effect) : ℕ := (effects.map r.stored).sum

theorem sum_update {n : ℕ} {channels : Token → List DownloadEvent} {channel : List DownloadEvent}
    (htoken : token < n) :
    ∑ other ∈ Finset.range n, chunksIn (Function.update channels token
        (channels token ++ channel) other) =
      ∑ other ∈ Finset.range n, chunksIn (channels other) + chunksIn channel := by
  have hpoint : ∀ other, chunksIn (Function.update channels token
      (channels token ++ channel) other) =
        chunksIn (channels other) + if other = token then chunksIn channel else 0 := by
    intro other
    by_cases h : other = token
    · subst h
      simp
    · simp [h]
  simp only [hpoint, Finset.sum_add_distrib, Finset.sum_ite_eq', Finset.mem_range, htoken, if_true]

structure System.Drawn (r : System) : Prop where
  fresh : r.Fresh
  channels : ∀ token, r.fresh ≤ token → r.channels token = []

theorem sum_draw (h : ∀ token, r.fresh ≤ token → r.channels token = []) (n : ℕ) :
    ∑ token ∈ Finset.range (r.fresh + n), chunksIn (r.channels token) =
      ∑ token ∈ Finset.range r.fresh, chunksIn (r.channels token) := by
  rw [Finset.sum_range_add]
  have hnew : ∀ k ∈ Finset.range n, chunksIn (r.channels (r.fresh + k)) = 0 := fun k _ => by
    rw [h _ (Nat.le_add_right _ k)]
    rfl
  rw [Finset.sum_eq_zero hnew, Nat.add_zero]

theorem stored_deliver (o : Effect) : (r.deliver o).stored = r.stored := by
  funext o'
  simp only [System.stored, (r.deliver_frame o).2.2.2.1]

theorem sum_deliver (hfresh : r.Fresh) (o : Effect) :
    ∑ token ∈ Finset.range r.fresh, chunksIn ((r.deliver o).channels token) =
      ∑ token ∈ Finset.range r.fresh, chunksIn (r.channels token) + r.stored o := by
  cases o with
  | event events event =>
    by_cases halive : (r.downloads events).any DownloadTask.alive = true
    · have htoken : events < r.fresh := by
        cases htask : r.downloads events with
        | none => simp [htask] at halive
        | some task => exact hfresh.downloads_lt htask
      simp only [System.deliver, System.stored, halive, if_true, System.setChannel,
        sum_update htoken, chunksIn_cons, chunksIn_nil, Nat.add_zero]
    · simp [System.deliver, System.stored, halive]
  | websocket commands command =>
    have hsame : (r.deliver (.websocket commands command)).channels = r.channels := by
      simp only [System.deliver]
      split_ifs <;> rfl
    simp [hsame, System.stored]
  | reply waiter reply => simp [System.deliver, System.stored]

theorem sum_deliverAll (hfresh : r.Fresh) (effects : List Effect) :
    ∑ token ∈ Finset.range r.fresh, chunksIn ((effects.foldl System.deliver r).channels token) =
      ∑ token ∈ Finset.range r.fresh, chunksIn (r.channels token) + r.storedBy effects := by
  induction effects generalizing r with
  | nil => simp [System.storedBy]
  | cons o effects ih =>
    obtain ⟨-, -, hdrawn, hdownloads, huploads, hwebsockets⟩ := r.deliver_frame o
    have hnext : (r.deliver o).Fresh := by
      refine ⟨?_, ?_, ?_⟩
      · rw [hdrawn, hdownloads]
        exact hfresh.downloads
      · rw [hdrawn, huploads]
        exact hfresh.uploads
      · rw [hdrawn, hwebsockets]
        exact hfresh.websockets
    have hrest := ih hnext
    rw [hdrawn, sum_deliver hfresh o] at hrest
    simp only [List.foldl_cons, hrest, System.storedBy, stored_deliver, List.map_cons,
      List.sum_cons, Nat.add_assoc]

def Effect.chunks : Effect → ℕ
  | .event _ content => content.chunks
  | _ => 0

def chunksOf (effects : List Effect) : ℕ := (effects.map Effect.chunks).sum

theorem storedBy_le (effects : List Effect) : r.storedBy effects ≤ chunksOf effects := by
  induction effects with
  | nil => exact Nat.le_refl _
  | cons o effects ih =>
    simp only [System.storedBy, chunksOf, List.map_cons, List.sum_cons] at ih ⊢
    refine Nat.add_le_add ?_ ih
    cases o with
    | event events event =>
      simp only [System.stored, Effect.chunks]
      split_ifs
      · exact Nat.le_refl _
      · exact Nat.zero_le _
    | _ => exact Nat.zero_le _

section
variable {effects effects' : List Effect}

@[simp] theorem chunksOf_nil : chunksOf [] = 0 := rfl

@[simp] theorem chunksOf_cons {o : Effect} : chunksOf (o :: effects) = o.chunks + chunksOf effects := by
  simp [chunksOf]

@[simp] theorem chunksOf_append :
    chunksOf (effects ++ effects') = chunksOf effects + chunksOf effects' := by
  simp [chunksOf]

@[simp] theorem chunks_intoEvent {chunk : Chunk} : chunk.intoEvent.chunks = 1 := by
  cases chunk <;> rfl

@[simp] theorem chunksOf_replyTo {waiter : Option Waiter} {result : UploadResult} :
    chunksOf (replyTo waiter result) = 0 := by cases waiter <;> rfl

@[simp] theorem chunksOf_sendUploadProgress {ws : Option WebsocketPeer} {position : Position} :
    chunksOf (sendUploadProgress ws position) = 0 := by cases ws <;> rfl

@[simp] theorem chunksOf_replaceDownloader : chunksOf s.replaceDownloader = 0 := by
  unfold State.replaceDownloader
  split <;> rfl

@[simp] theorem chunks_replyUpload {waiter : Waiter} {result : UploadResult} :
    (replyUpload waiter result).chunks = 0 := rfl

end

theorem clearError_chunks {pending : Pending} : pending.clearError.chunks = pending.chunks := by
  cases pending <;> rfl

theorem evictUploader_chunks : s.evictUploader.1.pending.chunks = s.pending.chunks := by
  unfold State.evictUploader State.terminateUploader
  cases hu : s.uploader with
  | none => rfl
  | some uploader => cases hp : s.pending <;> rfl

theorem Command.Signals.chunks {effects : List Effect} (h : c.Signals effects) :
    chunksOf effects = 0 := by
  refine List.sum_eq_zero fun n hmem => ?_
  obtain ⟨o, ho, rfl⟩ := List.mem_map.mp hmem
  rcases h.unseen o ho with ⟨_, _, rfl, _⟩ | ⟨_, _, rfl⟩ <;> rfl

theorem handle_chunks (h : ¬s.AcceptsChunk c) :
    (s.handle c).state.pending.chunks + chunksOf (s.handle c).effects ≤ s.pending.chunks := by
  have hc := s.handled c
  generalize s.handle c = o at hc ⊢
  cases hc with
  | answered | finishTold | finishIdle | downloaderLeft | uploaderDone | ignored =>
    simp [Effect.chunks, Pending.chunks]
  | released hp hsettles =>
    cases hsettles <;> simp [hp, Effect.chunks, Pending.chunks]
  | downloads _ hsettles => cases hsettles <;> simp [Effect.chunks, Pending.chunks]
  | finishHeld _ hp | flushes _ hp => simp [hp, Effect.chunks, Pending.chunks]
  | startRefused =>
    obtain ⟨waiter, hevict⟩ := s.evictUploader_effects
    simp [hevict, evictUploader_chunks]
  | starts =>
    obtain ⟨waiter, hevict⟩ := s.evictUploader_effects
    simp [hevict, evictUploader_chunks, clearError_chunks]
  | @relays token _ chunk w _ hu hp | @holds token _ chunk w hu hp =>
    exact absurd ⟨token, chunk, w, rfl, by simp [State.uploaderToken, hu], hp⟩ h
  | signals hsame hos => simp [hsame.2.2, hos.chunks]
  | uploaderLeft => simp [clearError_chunks]

theorem handle_accepted (h : s.AcceptsChunk c) :
    (s.handle c).flow = .cont ∧ s.pending = .none ∧
      ((∃ downloader event rest, s.downloader = .connected downloader ∧
          (s.handle c).state.pending = .none ∧ event.chunks = 1 ∧ chunksOf rest = 0 ∧
          (s.handle c).effects = .event downloader.events event :: rest) ∨
        (∀ downloader, s.downloader ≠ .connected downloader) ∧
          (s.handle c).state.pending.chunks = 1 ∧ (s.handle c).effects = []) := by
  obtain ⟨token, chunk, reply, rfl, hu, hp⟩ := h
  refine ⟨rfl, hp, ?_⟩
  obtain ⟨uploader, huploader, htoken⟩ := Option.map_eq_some_iff.mp hu
  cases hd : s.downloader with
  | connected downloader =>
    refine .inl ⟨downloader, chunk.intoEvent,
      sendUploadProgress s.uploaderWs (addU64 uploader.position chunk.len) ++
        [replyUpload reply (.ok ())], rfl, ?_, chunks_intoEvent, by simp, ?_⟩
    · simp [State.handle, State.uploadData, huploader, htoken, hp, hd]
    · simp [State.handle, State.uploadData, huploader, htoken, hp, hd]
  | disconnected =>
    exact .inr ⟨(by simp), by simp [State.handle, State.uploadData, huploader, htoken, hp, hd,
      Pending.chunks], by simp [State.handle, State.uploadData, huploader, htoken, hp, hd]⟩
  | finished =>
    exact .inr ⟨(by simp), by simp [State.handle, State.uploadData, huploader, htoken, hp, hd,
      Pending.chunks], by simp [State.handle, State.uploadData, huploader, htoken, hp, hd]⟩

section
variable {rest queue : List Command} {session : Session} {effects : List Effect}

theorem turn_held (hfresh : r.Fresh) :
    (effects.foldl System.deliver { r with session := session, queue := queue }).held =
      session.chunks + (∑ token ∈ Finset.range r.fresh, chunksIn (r.channels token) +
        r.storedBy effects) := by
  have hsame : System.Fresh { r with session := session, queue := queue } :=
    ⟨hfresh.1, hfresh.2, hfresh.3⟩
  have hsum := sum_deliverAll hsame effects
  simp only [System.held, System.deliverAll_session, System.deliverAll_fresh] at hsum ⊢
  rw [hsum]
  rfl

theorem turn_stores (hfresh : r.Fresh) (hqueue : r.queue = c :: rest)
    (hstep : r.session.step c = some (session, effects)) (hstores : r.Stores .turn) :
    (effects.foldl System.deliver { r with session := session, queue := queue }).held =
      r.held + 1 := by
  obtain ⟨-, hrunning, c', rest', hqueue', haccepts, halive⟩ := hstores
  obtain ⟨rfl, -⟩ := List.cons.inj (hqueue.symm.trans hqueue')
  obtain ⟨-, rfl, rfl⟩ := Session.step_eq_some.mp hstep
  obtain ⟨hflow, hp, hcases⟩ := handle_accepted haccepts
  rw [turn_held hfresh]
  have hnone : Pending.none.chunks = 0 := rfl
  simp only [System.held, Session.chunks, hrunning, hflow, hp, if_true, decide_true, hnone,
    Nat.zero_add]
  rcases hcases with ⟨downloader, event, rest, hd, hpending, hevent, hrest, heffects⟩ |
    ⟨hd, hpending, heffects⟩
  · have hle : r.storedBy rest = 0 := Nat.eq_zero_of_le_zero (hrest ▸ storedBy_le rest)
    have hstored : r.storedBy (.event downloader.events event :: rest) = 1 := by
      simp only [System.storedBy] at hle ⊢
      simp only [List.map_cons, List.sum_cons, hle, System.stored, halive downloader hd, if_true,
        hevent]
    rw [heffects, hpending, hstored, hnone, Nat.zero_add]
  · rw [heffects, hpending, Nat.add_comm]
    rfl

theorem turn_not_stores (hfresh : r.Fresh) (hqueue : r.queue = c :: rest)
    (hstep : r.session.step c = some (session, effects)) (hstores : ¬r.Stores .turn) :
    (effects.foldl System.deliver { r with session := session, queue := queue }).held ≤ r.held := by
  obtain ⟨hrunning, rfl, rfl⟩ := Session.step_eq_some.mp hstep
  have hsession : ∀ t : State, ∀ flow : ControlFlow,
      Session.chunks ⟨t, flow = .cont⟩ ≤ t.pending.chunks := by
    intro t flow
    simp only [Session.chunks]
    split_ifs
    · exact Nat.le_refl _
    · exact Nat.zero_le _
  rw [turn_held hfresh]
  have hnext := hsession (r.session.state.handle c).state (r.session.state.handle c).flow
  simp only [System.held, Session.chunks, hrunning, if_true] at hnext ⊢
  by_cases haccepts : r.session.state.AcceptsChunk c
  · obtain ⟨hflow, hp, ⟨downloader, event, rest', hd, hpending, hevent, hrest, heffects⟩ |
      ⟨hd, hpending, heffects⟩⟩ := handle_accepted haccepts
    · -- The response that the chunk is for is gone.
      have hgone : ¬(r.downloads downloader.events).any DownloadTask.alive = true := by
        intro halive
        refine hstores ⟨rfl, hrunning, c, rest, hqueue, haccepts, fun other hother => ?_⟩
        obtain rfl := DownloaderSlot.connected.inj (hd.symm.trans hother)
        exact halive
      have hle : r.storedBy rest' = 0 := Nat.eq_zero_of_le_zero (hrest ▸ storedBy_le rest')
      have hstored : r.storedBy (.event downloader.events event :: rest') = 0 := by
        simp only [System.storedBy] at hle ⊢
        simp only [List.map_cons, List.sum_cons, hle, System.stored, hgone, if_false,
          Bool.false_eq_true]
      rw [hpending] at hnext
      rw [heffects, hpending, hp, hstored]
      omega
    · exact absurd ⟨rfl, hrunning, c, rest, hqueue, haccepts, fun other h => absurd h (hd other)⟩
        hstores
  · have hchunks := handle_chunks haccepts
    have hle := storedBy_le (r := r) (r.session.state.handle c).effects
    omega

end

theorem deliverAll_channels_eq_nil {effects : List Effect} (hchannel : r.channels token = [])
    (htask : r.downloads token = none) :
    (effects.foldl System.deliver r).channels token = [] := by
  induction effects generalizing r with
  | nil => exact hchannel
  | cons o effects ih =>
    refine ih ?_ (by rw [(r.deliver_frame o).2.2.2.1]; exact htask)
    cases o with
    | event events event =>
      simp only [System.deliver]
      split_ifs with halive
      · have hne : token ≠ events := by
          rintro rfl
          simp [htask] at halive
        simpa [System.setChannel, hne] using hchannel
      · exact hchannel
    | websocket commands command =>
      simp only [System.deliver]
      split_ifs <;> exact hchannel
    | reply waiter reply => exact hchannel

theorem shrinks {t : System} (h : r.Drawn) (ht : t.Fresh) (hsession : t.session = r.session)
    (hfresh : r.fresh ≤ t.fresh)
    (hchannels : ∀ token, t.channels token = r.channels token ∨
      chunksIn (t.channels token) ≤ chunksIn (r.channels token) ∧ token < r.fresh) :
    t.held ≤ r.held ∧ t.Drawn := by
  obtain ⟨n, hn⟩ := Nat.exists_eq_add_of_le hfresh
  refine ⟨?_, ht, fun token htoken => ?_⟩
  · rw [System.held, System.held, hsession, hn, ← sum_draw h.channels n]
    refine Nat.add_le_add_left (Finset.sum_le_sum fun token _ => ?_) _
    rcases hchannels token with hsame | ⟨hle, _⟩
    · rw [hsame]
    · exact hle
  · have hout : r.fresh ≤ token := Nat.le_trans hfresh htoken
    rcases hchannels token with hsame | ⟨_, hlt⟩
    · rw [hsame, h.channels token hout]
    · exact absurd hlt (Nat.not_lt.mpr hout)

theorem turn_drawn {queue : List Command} {session : Session} {effects : List Effect}
    (h : r.Drawn) (hfresh : (effects.foldl System.deliver
      { r with session := session, queue := queue }).Fresh) :
    (effects.foldl System.deliver { r with session := session, queue := queue }).Drawn := by
  refine ⟨hfresh, fun token htoken => ?_⟩
  rw [System.deliverAll_fresh] at htoken
  exact deliverAll_channels_eq_nil (h.channels token htoken) (h.fresh.downloads token htoken)

theorem Change.held_le (h : r.Drawn) (hchange : Change r e r' os) :
    (¬r.Stores e → r'.held ≤ r.held) ∧ r'.Drawn := by
  have hfresh := h.fresh.change hchange
  have hsame : ∀ {t : System}, t.channels = r.channels → ∀ token,
      t.channels token = r.channels token ∨
        chunksIn (t.channels token) ≤ chunksIn (r.channels token) ∧ token < r.fresh :=
    fun ht token => .inl (by rw [ht])
  have hset : ∀ {t : System} {token : Token} {task : DownloadTask}
      {channel : List DownloadEvent}, r.downloads token = some task →
      chunksIn channel ≤ chunksIn (r.channels token) →
      t.channels = Function.update r.channels token channel → ∀ other,
        t.channels other = r.channels other ∨
          chunksIn (t.channels other) ≤ chunksIn (r.channels other) ∧ other < r.fresh := by
    intro t token task channel htask hle ht other
    by_cases hother : other = token
    · subst hother
      exact .inr ⟨by simpa [ht] using hle, h.fresh.downloads_lt htask⟩
    · exact .inl (by simp [ht, hother])
  have hquiet : ∀ {t : System}, t.held ≤ r.held ∧ t.Drawn →
      (¬r.Stores e → t.held ≤ r.held) ∧ t.Drawn := fun ht => ⟨fun _ => ht.1, ht.2⟩
  cases hchange with
  | turn hqueue hstep =>
    exact ⟨turn_not_stores h.fresh hqueue hstep, turn_drawn h hfresh⟩
  | downloadRefused htask hreply hheld =>
    exact hquiet <| shrinks h hfresh rfl (Nat.le_refl _) (hset htask (Nat.zero_le _) rfl)
  | downloadMore htask hchannel =>
    exact hquiet <| shrinks h hfresh rfl (Nat.le_refl _)
      (hset htask (by simp [hchannel]) rfl)
  | downloadFinal htask hchannel =>
    exact hquiet <| shrinks h hfresh rfl (Nat.le_refl _)
      (hset htask (by simp [hchannel]) rfl)
  | downloadReplaced htask hchannel =>
    exact hquiet <| shrinks h hfresh rfl (Nat.le_refl _) (hset htask (Nat.zero_le _) rfl)
  | downloadEnded htask =>
    exact hquiet <| shrinks h hfresh rfl (Nat.le_refl _) (hset htask (Nat.zero_le _) rfl)
  | downloadCancelled htask =>
    exact hquiet <| shrinks h hfresh rfl (Nat.le_refl _) (hset htask (Nat.zero_le _) rfl)
  | request hplain => exact hquiet <| shrinks h hfresh rfl (Nat.le_add_right _ 1) (hsame rfl)
  | download => exact hquiet <| shrinks h hfresh rfl (Nat.le_add_right _ 2) (hsame rfl)
  | upload => exact hquiet <| shrinks h hfresh rfl (Nat.le_add_right _ 2) (hsame rfl)
  | uploadFlushing htask hreply =>
    exact hquiet <| shrinks h hfresh rfl (Nat.le_add_right _ 1) (hsame rfl)
  | uploadRead htask => exact hquiet <| shrinks h hfresh rfl (Nat.le_add_right _ 1) (hsame rfl)
  | uploadEmpty htask => exact hquiet <| shrinks h hfresh rfl (Nat.le_add_right _ 2) (hsame rfl)
  | uploadMore htask => exact hquiet <| shrinks h hfresh rfl (Nat.le_add_right _ 2) (hsame rfl)
  | uploadFinal htask =>
    exact hquiet <| shrinks h hfresh rfl (Nat.le_add_right _ 1) (hsame rfl)
  | websocket => exact hquiet <| shrinks h hfresh rfl (Nat.le_add_right _ 2) (hsame rfl)
  | _ => exact hquiet <| shrinks h hfresh rfl (Nat.le_refl _) (hsame rfl)

theorem step_stores (h : r.Drawn) (hstep : r.step e = some (r', os)) (hstores : r.Stores e) :
    r'.held = r.held + 1 := by
  obtain ⟨rfl, -⟩ := id hstores
  obtain ⟨c, rest, session, effects, hqueue, hturn, rfl, rfl⟩ := System.turn_eq_some hstep
  exact turn_stores h.fresh hqueue hturn hstores

theorem System.Drawn.of_run (hrun : (relaySystem metadata).Run tr r) : r.Drawn := by
  refine hrun.invariant (P := System.Drawn) ⟨.spawn, fun _ _ => rfl⟩ ?_
  intro r e r' os h _ hstep
  exact (System.step_change hstep).held_le h |>.2

/-- The relay never holds more than one chunk of content for a session exactly in the runs
in which a chunk is accepted only when none is held: none pending, and none on the channel
of a download whose response has yet to take it. -/
theorem holds_at_most_one (hrun : (relaySystem metadata).Run tr r) :
    (∀ pre suf t, tr = pre ++ suf → (relaySystem metadata).Run pre t → t.held ≤ 1) ↔
      (relaySystem metadata).Path StoresOne (System.spawn metadata) tr r := by
  refine hrun.guarded_iff (P := fun r => r.held ≤ 1) (by simp [relaySystem, System.spawn,
    System.held, Session.chunks, Session.spawn, Pending.chunks]) ?_
  intro tr r e r' os hpath hone hstep
  have hdrawn := System.Drawn.of_run hpath
  have hchange := System.step_change hstep
  constructor
  · intro hle hstores
    have heq := step_stores hdrawn hstep hstores
    omega
  · intro hguard
    by_cases hstores : r.Stores e
    · have hzero := hguard hstores
      have heq := step_stores hdrawn hstep hstores
      omega
    · exact Nat.le_trans ((hchange.held_le hdrawn).1 hstores) hone

def onePending : List SystemEvent :=
  [.upload 0, .turn, .uploadResume 0, .turn, .uploadResume 0, .uploadBody 0 (.chunk [7]),
    .uploadBody 0 .eof, .turn]

theorem holds_at_most_one_pending : ∃ tr r,
    (relaySystem "").exec (System.spawn "") onePending = some (tr, r) ∧
      r.held = 1 ∧
      ∀ pre suf t, tr = pre ++ suf → (relaySystem "").Run pre t → t.held ≤ 1 := by
  obtain ⟨tr, r, hexec, hheld, hpath⟩ : ∃ tr r,
      (relaySystem "").exec (System.spawn "") onePending = some (tr, r) ∧
        r.held = 1 ∧ (relaySystem "").Path StoresOne (System.spawn "") tr r := by
    have hempty : ∀ {r : System} {e : SystemEvent}, r.held = 0 → StoresOne r e := fun h _ => h
    refine ⟨_, _, rfl, rfl, ?_⟩
    exact .snoc (.snoc (.snoc (.snoc (.snoc (.snoc (.snoc (.snoc
      (.refl : EventMachine.Path _ _ _ [] _) (hempty rfl) rfl) (hempty rfl) rfl) (hempty rfl) rfl)
      (hempty rfl) rfl) (hempty rfl) rfl) (hempty rfl) rfl) (hempty rfl) rfl) (hempty rfl) rfl
  exact ⟨tr, r, hexec, hheld, (holds_at_most_one (EventMachine.exec_run _ hexec)).mpr hpath⟩

/-- An upload has sent two chunks before the response of the download takes the first. -/
theorem holds_two : ∃ tr r,
    (relaySystem "").exec (System.spawn "")
      [.download 0, .turn, .downloadResume 0, .upload 0, .turn, .uploadResume 2, .turn,
        .uploadResume 2, .uploadBody 2 (.chunk [7]), .uploadBody 2 (.chunk [8]), .turn,
        .uploadResume 2, .uploadBody 2 (.chunk [9]), .turn] = some (tr, r) ∧
      r.channels 0 = [.more ⟨5, [7]⟩, .more ⟨6, [8]⟩] ∧ r.held = 2 :=
  ⟨_, _, rfl, rfl, rfl⟩

end Glopfile.Relay

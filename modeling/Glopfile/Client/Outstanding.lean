import Glopfile.Simulation
import Glopfile.Client.RequestWindow

/-!
# The requests a p2p transfer still awaits

Beside the download stand the requests it has sent whose answers may still come. A response
answers the request for its offset, whether or not it is stored, and the answer to a request may be
lost; either way its offset is spent.

Requesting goes on from `requested_offset` in whole chunks for as long as every request loop finds
the file at the start of one. So a transfer awaits a request for the offset of its file throughout
exactly if its request loops find the file at multiples of `CHUNK_SIZE` that are not spent.
-/

namespace Glopfile.Client

open EventMachine (Trace)

/-- `spent` are the offsets of requests that had an answer, or lost it. -/
structure Outstanding where
  download : Download
  requests : List DataRequest
  spent : List ℕ

inductive ChannelEvent
  | client (e : Event)
  | lost (offset : ℕ)

def Output.request : Output → Option DataRequest
  | .sent (.dataRequest request) => some request
  | _ => none

def Event.answers : Event → Option ℕ
  | .peerMessage (some (.dataResponse offset _)) _ _ => some offset
  | _ => none

namespace Outstanding

def spawn (transport : Transport) (fileSize : ℕ) : Outstanding :=
  ⟨.spawn transport fileSize, [], []⟩

def spend (p : Outstanding) (offset : ℕ) : Outstanding :=
  { p with
    requests := p.requests.filter fun request => request.offset ≠ offset
    spent := if offset < p.download.state.requestedOffset then offset :: p.spent else p.spent }

def hear (p : Outstanding) (e : Event) : Outstanding :=
  match e.answers with
  | none => p
  | some offset => p.spend offset

def after (p : Outstanding) (e : Event) (d : Download) (os : List Output) : Outstanding :=
  { p.hear e with
    download := d
    requests := (p.hear e).requests ++ os.filterMap Output.request }

@[simp] theorem hear_download (p : Outstanding) (e : Event) : (p.hear e).download = p.download := by
  unfold hear
  cases e.answers <;> rfl

/-- A transfer of a file that is not complete awaits a request for its offset. -/
def Open (p : Outstanding) : Prop :=
  ∀ peer before offset, p.download.phase = .transferring peer before →
    p.download.offset = some offset → offset < p.download.state.totalLen →
    ∃ request ∈ p.requests, request.offset = offset

end Outstanding

def awaiting (decrypt : List UInt8 → Option (List UInt8)) (transport : Transport)
    (fileSize : ℕ) : EventMachine Outstanding ChannelEvent Output where
  init := .spawn transport fileSize
  step p
    | .client e => (p.download.step decrypt e).map fun r => (p.after e r.1 r.2, r.2)
    | .lost offset => some (p.spend offset, [])

def AcceptsAll (total received requested : ℕ) (sends : Option ℕ) : Prop :=
  ∀ k, sends = some k → windowEnd total received ≤ requested + k * chunkSize

/-- A request loop that can send all it may finds the file at the start of a chunk that is not
spent, and the answer that a transfer needs next is not lost. -/
def AtChunks (p : Outstanding) : ChannelEvent → Prop
  | .client e => ∀ received sends, p.download.requestsAt e = some (received, sends) →
      received ≤ p.download.state.requestedOffset →
      AcceptsAll p.download.state.totalLen received p.download.state.requestedOffset sends →
      chunkSize ∣ received ∧ received ∉ (p.hear e).spent
  | .lost offset => ∀ peer before, p.download.phase = .transferring peer before →
      offset < p.download.state.totalLen → p.download.offset ≠ some offset

variable {decrypt : List UInt8 → Option (List UInt8)} {transport : Transport} {fileSize : ℕ}
  {d d' : Download} {e : Event} {os : List Output} {p : Outstanding}

section Phases
variable {phase next : Phase} {peer : PeerTask} {before : Option ℕ}

theorem Phase.setPeer_transferring {task : PeerTask}
    (h : phase.setPeer task = .transferring peer before) :
    ∃ peer, phase = .transferring peer before := by
  cases phase with
  | transferring peer before =>
    obtain ⟨_, rfl⟩ := Phase.transferring.inj h
    exact ⟨peer, rfl⟩
  | _ => cases h

theorem Phase.setRelay_transferring {task : RelayTask} (hrelay : phase.relay.isSome = true) :
    phase.setRelay task ≠ .transferring peer before := by
  intro h
  cases phase with
  | transferring peer before => cases hrelay
  | _ => cases h

theorem Phase.AfterError.transferring {offset : Option ℕ} {error : Error}
    (h : phase.AfterError offset error next) : next ≠ .transferring peer before := by
  rintro rfl
  cases h

theorem Phase.AfterAwait.transferring {offset : Option ℕ} {result : Await}
    {outputs : List Output} (h : phase.AfterAwait offset result next outputs)
    (hnext : next = .transferring peer before) :
    outputs = [] ∧ (result = .flushing ∨ result = .returned .continues ∧
      (phase.connects = true ∨ ∃ peer, phase = .transferring peer before)) := by
  cases h with
  | connected hconnects => exact ⟨rfl, .inr ⟨rfl, .inl hconnects⟩⟩
  | received hphase =>
    obtain ⟨_, rfl⟩ := Phase.transferring.inj hnext
    exact ⟨rfl, .inr ⟨rfl, .inr ⟨_, hphase⟩⟩⟩
  | flushing => exact ⟨rfl, .inl rfl⟩
  | failed herror => exact absurd hnext herror.transferring
  | poisoned => cases hnext
  | ended => cases hnext
  | transferred => cases hnext
  | panicked => cases hnext

end Phases

section Loop
variable {s : DownloadState} {received fuel : ℕ} {sends : Option ℕ}

theorem requestData_from (hle : received ≤ s.requestedOffset) {request : DataRequest}
    (hmem : request ∈ (DownloadState.requestData received fuel s sends).outputs.filterMap
      Output.request) : s.requestedOffset ≤ request.offset := by
  induction fuel generalizing s sends with
  | zero => cases hmem
  | succ fuel ih =>
    simp only [DownloadState.requestData, DownloadState.nextDataRequest_eq hle] at hmem
    split_ifs at hmem
    · cases hsend : trySend sends with
      | none =>
        simp only [hsend] at hmem
        cases hmem
      | some rest =>
        simp only [hsend] at hmem
        rcases List.mem_cons.mp hmem with rfl | hrest
        · exact Nat.le_refl _
        · exact Nat.le_trans (Nat.le_add_right _ _) (ih (Nat.le_add_right_of_le hle) hrest)
    · cases hmem

theorem requestData_continues_iff (hle : received ≤ s.requestedOffset)
    (hfuel : s.totalLen - s.requestedOffset < fuel) :
    (DownloadState.requestData received fuel s sends).result = .returned .continues ↔
      AcceptsAll s.totalLen received s.requestedOffset sends := by
  rw [(DownloadState.requestData_reach sends hle hfuel).2]
  have hall : AcceptsAll s.totalLen received s.requestedOffset sends ↔
      reach s.totalLen received s.requestedOffset sends =
        max s.requestedOffset (windowEnd s.totalLen received) := by
    cases sends with
    | none => simp [AcceptsAll, reach]
    | some k =>
      simp only [AcceptsAll, reach, Option.some.injEq, forall_eq']
      omega
  rw [hall]
  split_ifs with hreach
  · exact iff_of_true rfl hreach
  · exact iff_of_false (by simp) hreach

theorem requestData_covers (hlt : s.requestedOffset < s.totalLen)
    (hfuel : s.totalLen - s.requestedOffset < fuel)
    (hresult : (DownloadState.requestData s.requestedOffset fuel s sends).result =
      .returned .continues) :
    ∃ request ∈ (DownloadState.requestData s.requestedOffset fuel s
      sends).outputs.filterMap Output.request, request.offset = s.requestedOffset := by
  obtain ⟨fuel, rfl⟩ := Nat.exists_eq_succ_of_ne_zero (Nat.ne_zero_of_lt hfuel)
  have hwindow : s.requestedOffset < windowEnd s.totalLen s.requestedOffset := by
    simp only [windowEnd, maxP2pInflightDataLen]
    omega
  have hsends : sends ≠ some 0 := by
    rintro rfl
    simp [DownloadState.requestData, DownloadState.nextDataRequest_eq (Nat.le_refl _), hwindow,
      trySend] at hresult
  obtain ⟨len, hmem⟩ : ∃ len, .sent (.dataRequest ⟨s.requestedOffset, len⟩) ∈
      (DownloadState.requestData s.requestedOffset (fuel + 1) s sends).outputs :=
    DownloadState.requestData_first (Nat.le_refl _) hwindow hsends
  exact ⟨_, List.mem_filterMap.mpr ⟨_, hmem, rfl⟩, rfl⟩

def DownloadState.Whole (s : DownloadState) : Prop :=
  chunkSize ∣ s.requestedOffset ∨ s.requestedOffset = s.totalLen

structure Chunked (s : DownloadState) (h : Handled) : Prop where
  whole : h.state.Whole
  grows : s.requestedOffset ≤ h.state.requestedOffset
  asked : ∀ request ∈ h.outputs.filterMap Output.request,
    chunkSize ∣ request.offset ∧ request.offset < h.state.requestedOffset
  covers : ∀ offset, chunkSize ∣ offset → s.requestedOffset ≤ offset →
    offset < h.state.requestedOffset →
    ∃ request ∈ h.outputs.filterMap Output.request, request.offset = offset

theorem Chunked.stops (hwhole : s.Whole) {result : Await} : Chunked s ⟨s, sends, [], result⟩ where
  whole := hwhole
  grows := Nat.le_refl _
  asked := nofun
  covers _ _ hle hlt := absurd hlt (Nat.not_lt.mpr hle)

/-- The last request of a loop is shorter than a chunk only if it ends with the file: the window
ends at a chunk when the file stands at one, and a loop that fails does not come to its end. -/
theorem next_whole {len : ℕ} (hle : received ≤ s.requestedOffset)
    (hlt : s.requestedOffset < windowEnd s.totalLen received) (hwhole : s.Whole)
    (hlen : len = min (windowEnd s.totalLen received - s.requestedOffset) chunkSize)
    (hreceived : chunkSize ∣ received ∨
      (DownloadState.requestData received fuel
        { s with requestedOffset := s.requestedOffset + len } sends).result = .failed .send) :
    chunkSize ∣ s.requestedOffset ∧
      ({ s with requestedOffset := s.requestedOffset + len } : DownloadState).Whole := by
  have hend : windowEnd s.totalLen received ≤ s.totalLen := Nat.min_le_left _ _
  have hchunk : chunkSize ∣ s.requestedOffset :=
    hwhole.resolve_right (Nat.ne_of_lt (Nat.lt_of_lt_of_le hlt hend))
  refine ⟨hchunk, ?_⟩
  by_cases hfull : len = chunkSize
  · exact .inl (Nat.dvd_add hchunk (hfull ▸ Nat.dvd_refl _))
  · have hstop : s.requestedOffset + len = windowEnd s.totalLen received := by omega
    rcases hreceived with hdvd | hfailed
    · refine .inr ?_
      show s.requestedOffset + len = s.totalLen
      simp only [windowEnd, chunkSize, maxP2pInflightDataLen] at *
      omega
    · cases fuel with
      | zero => cases hfailed
      | succ fuel =>
        rw [@DownloadState.requestData_idle { s with requestedOffset := s.requestedOffset + len }
          received fuel sends (Nat.le_add_right_of_le hle) (Nat.le_of_eq hstop.symm)] at hfailed
        cases hfailed

theorem requestData_chunked (hle : received ≤ s.requestedOffset) (hwhole : s.Whole)
    (hreceived : chunkSize ∣ received ∨
      (DownloadState.requestData received fuel s sends).result = .failed .send) :
    Chunked s (DownloadState.requestData received fuel s sends) := by
  induction fuel generalizing s sends with
  | zero => exact .stops hwhole
  | succ fuel ih =>
    simp only [DownloadState.requestData, DownloadState.nextDataRequest_eq hle] at hreceived ⊢
    by_cases hlt : s.requestedOffset < windowEnd s.totalLen received
    · rw [if_pos hlt] at hreceived ⊢
      cases hsend : trySend sends with
      | none => exact .stops hwhole
      | some rest =>
        simp only [hsend, Handled.after] at hreceived ⊢
        obtain ⟨hchunk, hnext⟩ := next_whole hle hlt hwhole rfl hreceived
        have htail := @ih { s with requestedOffset := _ } rest (Nat.le_add_right_of_le hle) hnext
          hreceived
        have hpos : 0 < min (windowEnd s.totalLen received - s.requestedOffset) chunkSize :=
          Nat.lt_min.mpr ⟨Nat.sub_pos_of_lt hlt, by decide⟩
        refine ⟨htail.whole, Nat.le_trans (Nat.le_add_right _ _) htail.grows,
          fun request hmem => ?_, fun offset hdvd hge hoffset => ?_⟩
        · rcases List.mem_cons.mp hmem with rfl | hrest
          · exact ⟨hchunk, Nat.lt_of_lt_of_le (Nat.lt_add_of_pos_right hpos) htail.grows⟩
          · exact htail.asked request hrest
        · by_cases heq : offset = s.requestedOffset
          · exact ⟨_, List.mem_cons_self, heq.symm⟩
          · have hnot : s.requestedOffset + chunkSize ≤ offset := by
              simp only [chunkSize] at *
              omega
            obtain ⟨request, hmem, hoff⟩ := htail.covers offset hdvd
              (Nat.le_trans (Nat.add_le_add_left (Nat.min_le_right _ _) _) hnot) hoffset
            exact ⟨request, List.mem_cons_of_mem _ hmem, hoff⟩
    · rw [if_neg hlt]
      exact .stops hwhole

end Loop

inductive Asking (d : Download) (e : Event) (d' : Download) (os : List Output) : Prop
  | loop {received fuel : ℕ} {sends : Option ℕ} {s : DownloadState}
      (hat : d.requestsAt e = some (received, sends)) (hle : received ≤ d.state.requestedOffset)
      (hstart : s.requestedOffset = d.state.requestedOffset) (htotal : s.totalLen = d.state.totalLen)
      (hfuel : s.totalLen - s.requestedOffset < fuel)
      (hstate : d'.state = (DownloadState.requestData received fuel s sends).state)
      (hos : os.filterMap Output.request =
        (DownloadState.requestData received fuel s sends).outputs.filterMap Output.request)
      (hoff : d'.offset = some received)
      (hphase : (∃ peer before, d'.phase = .transferring peer before) ↔
        (DownloadState.requestData received fuel s sends).result = .returned .continues) :
      Asking d e d' os
  | overrun {received : ℕ} {sends : Option ℕ} (hat : d.requestsAt e = some (received, sends))
      (hlt : d.state.requestedOffset < received)
      (hstate : d'.state.requestedOffset = d.state.requestedOffset)
      (hos : os.filterMap Output.request = [])
      (hphase : ∀ peer before, d'.phase ≠ .transferring peer before) : Asking d e d' os
  | quiet (hat : d.requestsAt e = none)
      (hstate : d'.state.requestedOffset = d.state.requestedOffset)
      (hos : os.filterMap Output.request = [])
      (hphase : ∀ peer before, d'.phase = .transferring peer before →
        (e.answers = none ∧ d'.offset = d.offset ∧
            ∃ peer, d.phase = .transferring peer before) ∨
          ∀ offset, d'.offset = some offset → d'.state.totalLen ≤ offset) : Asking d e d' os

theorem requestsAt_lt {received : ℕ} {sends : Option ℕ}
    (h : d.requestsAt e = some (received, sends)) : received < d.state.totalLen := by
  unfold Download.requestsAt at h
  split at h
  · split_ifs at h with hlt
    obtain ⟨rfl, -⟩ := Prod.mk.inj (Option.some.inj h)
    exact hlt
  · cases h

theorem answers_idle (h : d.requestSends e = none) : e.answers = none := by
  unfold Event.answers
  split
  · cases h
  · rfl

theorem Stored.requests {file : DecryptedFile} {outputs : List Output}
    (h : Stored d e file outputs) : outputs.filterMap Output.request = [] := by
  cases h <;> rfl

theorem finish_requests {s : DownloadState} {sends : Option ℕ} {io : List IoResult} :
    (s.finish decrypt sends io).outputs.filterMap Output.request = [] ∧
      (s.finish decrypt sends io).state.requestedOffset = s.requestedOffset := by
  obtain ⟨_, _, -, hstate, hcases⟩ := finish_cases decrypt s sends io
  rw [hstate]
  rcases hcases with ⟨-, -, h⟩ | ⟨-, -, -, h⟩ | ⟨-, -, h⟩ | ⟨-, -, h⟩ | ⟨-, -, h⟩
  all_goals rw [h]; exact ⟨rfl, rfl⟩

theorem Phase.AfterAwait.requests {phase next : Phase} {offset : Option ℕ} {result : Await}
    {outputs : List Output} (h : phase.AfterAwait offset result next outputs) :
    outputs.filterMap Output.request = [] := by
  cases h <;> rfl

theorem Phase.AfterAwait.transferring_iff {phase next : Phase} {offset : ℕ} {result : Await}
    {outputs : List Output} (h : phase.AfterAwait (some offset) result next outputs)
    (hflushing : result ≠ .flushing) :
    (∃ peer before, next = .transferring peer before) ↔ result = .returned .continues := by
  constructor
  · rintro ⟨peer, before, hnext⟩
    exact ((h.transferring hnext).2.resolve_left hflushing).1
  · rintro rfl
    cases h with
    | connected => exact ⟨_, _, rfl⟩
    | poisoned _ hoff => cases hoff
    | received => exact ⟨_, _, rfl⟩

theorem Asking.idle (hidle : d.Idle e ∨ d.state.decryptedFile.started = true)
    (htotal : d.state.totalLen = d.state.decryptedFile.fileSize)
    (hstate : d'.state.requestedOffset = d.state.requestedOffset)
    (hos : os.filterMap Output.request = [])
    (hphase : ∀ peer before, d'.phase ≠ .transferring peer before) : Asking d e d' os := by
  refine .quiet ?_ hstate hos fun peer before h => absurd h (hphase peer before)
  rcases hidle with hidle | hst
  · exact requestsAt_idle hidle.2
  · exact requestsAt_started htotal hst

theorem Handles.asking {h : Handled} {phase : Phase} {outputs : List Output} {tr : Trace Event Output}
    (hs : Sound decrypt fileSize tr d) (hh : Handles decrypt d e h)
    (haw : d.phase.AfterAwait h.state.decryptedFile.offset h.result phase outputs) :
    Asking d e { d with state := h.state, phase := phase } (h.outputs ++ outputs) := by
  have htotal : d.state.totalLen = d.state.decryptedFile.fileSize := hs.total.trans hs.size.symm
  have hnone : outputs.filterMap Output.request = [] := haw.requests
  -- A call that does not go on leaves the transfer, or awaits the flush of a whole file.
  have hends (hresult : h.result ≠ .returned .continues) (peer : PeerTask) (before : Option ℕ)
      (hphase : phase = .transferring peer before) (offset : ℕ)
      (hoff : h.state.decryptedFile.offset = some offset) : h.state.totalLen ≤ offset := by
    have hflushing := (haw.transferring hphase).2.resolve_right fun hcont => hresult hcont.1
    obtain ⟨hsize, htotal', -, hstarted, -⟩ := hs.handles hh
    rw [offset_started (hstarted hflushing) hoff, hsize, htotal']
  cases hh with
  | ignored hconnects hidle =>
    refine .quiet (requestsAt_idle hidle.2) rfl hnone fun peer before hphase => ?_
    have hbefore := ((haw.transferring hphase).2.resolve_left (by simp)).2
    rw [hconnects] at hbefore
    exact .inl ⟨answers_idle hidle.2, rfl, hbefore.resolve_left (by simp)⟩
  | refused hidle =>
    refine .quiet ?_ rfl hnone fun peer before hphase => .inr (hends (by simp) peer before hphase)
    rcases hidle with hidle | hst
    · exact requestsAt_idle hidle.2
    · exact requestsAt_started htotal hst
  | poisoned hoff =>
    have hst : d.state.decryptedFile.started = true := by
      simp [DecryptedFile.started, offset_poisoned.mp hoff]
    exact .quiet (requestsAt_started htotal hst) rfl hnone fun peer before hphase =>
      .inr (hends (by simp) peer before hphase)
  | @requests _ sends file outputs' received hsends hst hoff hlt =>
    have hat : d.requestsAt e = some (received, sends) := by
      rw [hst.requestsAt hsends hoff, if_pos hlt]
    have hrequests (h : Handled) : (h.after outputs').outputs.filterMap Output.request =
        h.outputs.filterMap Output.request := by
      rw [Handled.after, List.filterMap_append, hst.requests, List.nil_append]
    obtain ⟨hfile, -, hresult⟩ := DownloadState.requestData_frame received
      (d.state.totalLen - d.state.requestedOffset + 1)
      { d.state with decryptedFile := file } sends
    simp only [Handled.after, hfile, hoff] at haw
    by_cases hle : received ≤ d.state.requestedOffset
    · refine @Asking.loop d e _ _ received _ sends { d.state with decryptedFile := file } hat hle
        rfl rfl (Nat.lt_succ_self _) rfl ?_ ?_ (haw.transferring_iff ?_)
      · rw [List.filterMap_append, hnone, List.append_nil, hrequests]
      · simp only [Download.offset, Handled.after, hfile, hoff]
      · rcases hresult with h | h | h <;> rw [h] <;> simp
    · have hover := @DownloadState.requestData_overrun { d.state with decryptedFile := file }
        received (d.state.totalLen - d.state.requestedOffset) sends (Nat.not_le.mp hle)
      rw [hover] at haw
      refine .overrun hat (Nat.not_le.mp hle) ?_ ?_ fun peer before hphase => ?_
      · simp only [Handled.after, hover]
      · rw [List.filterMap_append, hnone, List.append_nil, hrequests, hover]
        rfl
      · rcases (haw.transferring hphase).2 with h | h
        · cases h
        · cases h.1
  | @finishes _ sends io file outputs' received hsends hst hoff hle =>
    obtain ⟨hos, hstate⟩ := @finish_requests decrypt { d.state with decryptedFile := file } sends io
    refine .quiet ?_ hstate ?_ fun peer before hphase =>
      .inr (hends (finish_not_continues _ _ _) peer before hphase)
    · rw [hst.requestsAt hsends hoff, if_neg (Nat.not_lt.mpr hle)]
    · rw [List.filterMap_append, hnone, List.append_nil, Handled.after, List.filterMap_append,
        hst.requests, List.nil_append, hos]
  | flushed =>
    obtain ⟨hos, hstate⟩ := finish_requests
    refine .quiet rfl hstate ?_ fun peer before hphase =>
      .inr (hends (finish_not_continues _ _ _) peer before hphase)
    rw [List.filterMap_append, hnone, List.append_nil, hos]

theorem progress_requests (h : ∀ o ∈ os, ∃ current total, o = .progress current total) :
    os.filterMap Output.request = [] := by
  rw [List.filterMap_eq_nil_iff]
  intro o ho
  obtain ⟨current, total, rfl⟩ := h o ho
  rfl

theorem Change.asking {tr : Trace Event Output} (hs : Sound decrypt fileSize tr d)
    (hc : Change decrypt d e d' os) : Asking d e d' os := by
  have htotal : d.state.totalLen = d.state.decryptedFile.fileSize := hs.total.trans hs.size.symm
  have hrelay {task : RelayTask} (hrelay : d.phase.relay.isSome = true) (peer : PeerTask)
      (before : Option ℕ) : d.phase.setRelay task ≠ .transferring peer before :=
    Phase.setRelay_transferring hrelay
  cases hc with
  | @started ok _ => exact .quiet rfl rfl rfl fun _ _ hphase => by cases ok <;> cases hphase
  | offered =>
    refine .quiet rfl rfl rfl fun peer before hphase => .inl ⟨rfl, rfl, ?_⟩
    exact Phase.setPeer_transferring hphase
  | opened hpeer hconnects =>
    refine .quiet (requestsAt_idle (if_pos hconnects)) rfl rfl fun peer before hphase => ?_
    rw [hphase] at hconnects
    cases hconnects
  | peerError herror hidle =>
    exact .idle (.inl hidle) htotal rfl rfl fun _ _ => herror.transferring
  | handled hh haw => exact hh.asking hs haw
  | finished => exact .quiet rfl rfl rfl nofun
  | relayRequest h => exact .idle (.inl ⟨rfl, rfl⟩) htotal rfl rfl (hrelay (by rw [h]; rfl))
  | relayResponse h => exact .idle (.inl ⟨rfl, rfl⟩) htotal rfl rfl (hrelay (by rw [h]; rfl))
  | relayRetry h => exact .idle (.inl ⟨rfl, rfl⟩) htotal rfl rfl (hrelay h)
  | relayStored h =>
    exact .quiet rfl rfl rfl fun peer before hphase => absurd hphase (hrelay (by rw [h]; rfl) _ _)
  | relayPolled hidle _ h => exact .idle (.inl hidle) htotal rfl rfl (hrelay h)
  | relayClosed hidle => exact .idle (.inl hidle) htotal rfl rfl nofun
  | relayError hidle _ hos => exact .idle hidle htotal rfl (progress_requests hos) nofun
  | relayPanicked hidle _ _ hos => exact .idle hidle htotal rfl (progress_requests hos) nofun

/-- The start of every chunk that was requested is awaited, or spent, and no other offset is. -/
structure Charted (p : Outstanding) : Prop where
  whole : p.download.state.Whole
  asked : ∀ offset, chunkSize ∣ offset → offset < p.download.state.requestedOffset →
    offset ∉ p.spent → ∃ request ∈ p.requests, request.offset = offset
  requests : ∀ request ∈ p.requests, chunkSize ∣ request.offset ∧
    request.offset < p.download.state.requestedOffset ∧ request.offset ∉ p.spent
  spent : ∀ offset ∈ p.spent, offset < p.download.state.requestedOffset

namespace Charted

theorem spend (h : Charted p) (offset : ℕ) : Charted (p.spend offset) := by
  have hspent {other : ℕ} : other ∈ (p.spend offset).spent ↔
      other ∈ p.spent ∨ other = offset ∧ other < p.download.state.requestedOffset := by
    simp only [Outstanding.spend]
    split_ifs with hlt
    · rw [List.mem_cons, or_comm]
      exact or_congr_right ⟨fun heq => ⟨heq, heq ▸ hlt⟩, And.left⟩
    · exact ⟨.inl, fun hor => hor.resolve_right fun hand => hlt (hand.1 ▸ hand.2)⟩
  refine ⟨h.whole, fun other hdvd hlt hnot => ?_, fun request hmem => ?_, fun other hmem => ?_⟩
  · rw [hspent, not_or] at hnot
    obtain ⟨request, hmem, rfl⟩ := h.asked other hdvd hlt hnot.1
    exact ⟨request, List.mem_filter.mpr ⟨hmem, decide_eq_true fun heq => hnot.2 ⟨heq, hlt⟩⟩, rfl⟩
  · obtain ⟨hmem, hne⟩ := List.mem_filter.mp hmem
    obtain ⟨hdvd, hlt, hnot⟩ := h.requests request hmem
    refine ⟨hdvd, hlt, fun hspends => ?_⟩
    exact (hspent.mp hspends).elim hnot fun hand => of_decide_eq_true hne hand.1
  · exact (hspent.mp hmem).elim (h.spent other) And.right

theorem hear (h : Charted p) (e : Event) : Charted (p.hear e) := by
  unfold Outstanding.hear
  cases e.answers with
  | none => exact h
  | some offset => exact h.spend offset

theorem after (h : Charted p) (hstate : d.state.requestedOffset = p.download.state.requestedOffset)
    (htotal : d.state.totalLen = p.download.state.totalLen)
    (hos : os.filterMap Output.request = []) : Charted (p.after e d os) := by
  have hhear := h.hear e
  have hsame := p.hear_download e
  refine ⟨?_, fun offset hdvd hlt hnot => ?_, fun request hmem => ?_, fun offset hmem => ?_⟩
  · rw [DownloadState.Whole, Outstanding.after, hstate, htotal]
    exact h.whole
  · obtain ⟨request, hmem, heq⟩ := hhear.asked offset hdvd (by rw [hsame, ← hstate]; exact hlt) hnot
    exact ⟨request, List.mem_append_left _ hmem, heq⟩
  · rw [Outstanding.after, hos, List.append_nil] at hmem
    have hrequest := hhear.requests request hmem
    rw [hsame, ← hstate] at hrequest
    exact hrequest
  · have hlt := hhear.spent offset hmem
    rw [hsame, ← hstate] at hlt
    exact hlt

theorem after_loop {s : DownloadState} {h : Handled} (hc : Charted p) (hchunked : Chunked s h)
    (hstart : s.requestedOffset = p.download.state.requestedOffset) (hstate : d.state = h.state)
    (hos : os.filterMap Output.request = h.outputs.filterMap Output.request)
    (hfrom : ∀ request ∈ h.outputs.filterMap Output.request, s.requestedOffset ≤ request.offset) :
    Charted (p.after e d os) := by
  have hhear := hc.hear e
  have hsame := p.hear_download e
  have hgrows : p.download.state.requestedOffset ≤ d.state.requestedOffset := by
    rw [hstate, ← hstart]
    exact hchunked.grows
  have hspent (offset : ℕ) (hmem : offset ∈ (p.hear e).spent) :
      offset < p.download.state.requestedOffset := by
    rw [← hsame]
    exact hhear.spent offset hmem
  refine ⟨?_, fun offset hdvd hlt hnot => ?_, fun request hmem => ?_, fun offset hmem =>
    Nat.lt_of_lt_of_le (hspent offset hmem) hgrows⟩
  · rw [Outstanding.after, hstate]
    exact hchunked.whole
  · by_cases hold : offset < p.download.state.requestedOffset
    · obtain ⟨request, hmem, heq⟩ := hhear.asked offset hdvd (by rw [hsame]; exact hold) hnot
      exact ⟨request, List.mem_append_left _ hmem, heq⟩
    · obtain ⟨request, hmem, heq⟩ := hchunked.covers offset hdvd
        (hstart ▸ Nat.not_lt.mp hold) (hstate ▸ hlt)
      exact ⟨request, List.mem_append_right _ (hos ▸ hmem), heq⟩
  · rcases List.mem_append.mp hmem with hmem | hmem
    · obtain ⟨hdvd, hlt, hnot⟩ := hhear.requests request hmem
      rw [hsame] at hlt
      exact ⟨hdvd, Nat.lt_of_lt_of_le hlt hgrows, hnot⟩
    · rw [hos] at hmem
      obtain ⟨hdvd, hlt⟩ := hchunked.asked request hmem
      refine ⟨hdvd, hstate ▸ hlt, fun hspends => ?_⟩
      exact Nat.not_lt.mpr (hfrom request hmem) (hstart ▸ hspent _ hspends)

end Charted

theorem Charted.asked_iff {received fuel : ℕ} {sends : Option ℕ} {s : DownloadState}
    (hc : Charted p) (hle : received ≤ p.download.state.requestedOffset)
    (hlt : received < p.download.state.totalLen)
    (hs : s.totalLen = p.download.state.totalLen)
    (hstart : s.requestedOffset = p.download.state.requestedOffset)
    (hfuel : s.totalLen - s.requestedOffset < fuel)
    (hresult : (DownloadState.requestData received fuel s sends).result = .returned .continues)
    (hos : os.filterMap Output.request =
      (DownloadState.requestData received fuel s sends).outputs.filterMap Output.request) :
    (∃ request ∈ (p.after e d os).requests, request.offset = received) ↔
      chunkSize ∣ received ∧ received ∉ (p.hear e).spent := by
  have hhear := hc.hear e
  constructor
  · rintro ⟨request, hmem, rfl⟩
    rcases List.mem_append.mp hmem with hmem | hmem
    · obtain ⟨hdvd, -, hnot⟩ := hhear.requests request hmem
      exact ⟨hdvd, hnot⟩
    · have hfrom := requestData_from (hstart ▸ hle) (hos ▸ hmem)
      have heq : request.offset = p.download.state.requestedOffset :=
        Nat.le_antisymm hle (hstart ▸ hfrom)
      refine ⟨?_, fun hspent => ?_⟩
      · rw [heq]
        exact hc.whole.resolve_right (heq ▸ Nat.ne_of_lt hlt)
      · have hold := hhear.spent _ hspent
        rw [p.hear_download e, heq] at hold
        exact Nat.lt_irrefl _ hold
  · rintro ⟨hdvd, hnot⟩
    rcases Nat.lt_or_eq_of_le hle with hold | rfl
    · obtain ⟨request, hmem, heq⟩ :=
        hhear.asked received hdvd (by rw [p.hear_download e]; exact hold) hnot
      exact ⟨request, List.mem_append_left _ hmem, heq⟩
    · rw [← hstart] at hresult hos hlt ⊢
      obtain ⟨request, hmem, heq⟩ := requestData_covers (hs ▸ hlt) hfuel hresult
      exact ⟨request, List.mem_append_right _ (hos ▸ hmem), heq⟩

/-- A step keeps the transfer open exactly if its request loop is at a chunk that is not spent, and
then requesting goes on in whole chunks. -/
theorem Asking.open_iff (ho : p.Open) (hc : Charted p) (h : Asking p.download e d os)
    (htotal : d.state.totalLen = p.download.state.totalLen) :
    ((p.after e d os).Open ↔ AtChunks p (.client e)) ∧
      ((p.after e d os).Open → Charted (p.after e d os)) := by
  cases h with
  | @loop received fuel sends s hat hle hstart hs hfuel hstate hos hoff hphase =>
    have hlt := requestsAt_lt hat
    have hle' : received ≤ s.requestedOffset := hstart ▸ hle
    have hhear := hc.hear e
    have hwhole : s.Whole := by
      rw [DownloadState.Whole, hs, hstart]
      exact hc.whole
    have hchunked (hreceived : chunkSize ∣ received ∨
        (DownloadState.requestData received fuel s sends).result = .failed .send) :
        Charted (p.after e d os) :=
      hc.after_loop (requestData_chunked hle' hwhole hreceived) hstart hstate hos
        fun request hmem => requestData_from hle' hmem
    have hall : (DownloadState.requestData received fuel s sends).result = .returned .continues ↔
        AcceptsAll s.totalLen received s.requestedOffset sends :=
      requestData_continues_iff hle' hfuel
    rw [hs, hstart] at hall
    by_cases hgoes : ∃ peer before, d.phase = .transferring peer before
    · have hresult := hphase.mp hgoes
      obtain ⟨peer, before, hgoes⟩ := hgoes
      have hguard : AtChunks p (.client e) ↔
          chunkSize ∣ received ∧ received ∉ (p.hear e).spent := by
        refine ⟨fun h => h received sends hat hle (hall.mp hresult), fun h _ _ hat' _ _ => ?_⟩
        rw [hat] at hat'
        obtain ⟨rfl, rfl⟩ := Prod.mk.inj (Option.some.inj hat')
        exact h
      have hopen : (p.after e d os).Open ↔
          ∃ request ∈ (p.after e d os).requests, request.offset = received := by
        refine ⟨fun h => h peer before received hgoes hoff (htotal ▸ hlt), fun h _ _ _ _ hoff' _ => ?_⟩
        rw [← Option.some.inj (hoff.symm.trans hoff')]
        exact h
      have hiff : (p.after e d os).Open ↔ AtChunks p (.client e) := by
        rw [hguard, hopen]
        exact hc.asked_iff hle hlt hs hstart hfuel hresult hos
      exact ⟨hiff, fun h => hchunked (.inl (hguard.mp (hiff.mp h)).1)⟩
    · refine ⟨iff_of_true (fun peer before _ h => absurd ⟨peer, before, h⟩ hgoes) ?_, fun _ =>
        hchunked (.inr ?_)⟩
      · intro received' sends' hat' _ hacc
        rw [hat] at hat'
        obtain ⟨rfl, rfl⟩ := Prod.mk.inj (Option.some.inj hat')
        exact absurd (hphase.mpr (hall.mpr hacc)) hgoes
      · have hend := (DownloadState.requestData_reach sends hle' hfuel).2
        split_ifs at hend with hreach
        · exact absurd (hphase.mpr hend) hgoes
        · exact hend
  | overrun hat hlt hstate hos hphase =>
    refine ⟨iff_of_true (fun peer before _ h => absurd h (hphase peer before)) ?_,
      fun _ => hc.after hstate htotal hos⟩
    intro received' sends' hat' hle
    rw [hat] at hat'
    obtain ⟨rfl, -⟩ := Prod.mk.inj (Option.some.inj hat')
    exact absurd hle (Nat.not_le.mpr hlt)
  | quiet hat hstate hos hphase =>
    refine ⟨iff_of_true ?_ ?_, fun _ => hc.after hstate htotal hos⟩
    · intro peer before offset h hoff hlt
      rcases hphase peer before h with ⟨hanswers, hsame, peer', hbefore⟩ | hend
      · obtain ⟨request, hmem, heq⟩ := ho peer' before offset hbefore (hsame ▸ hoff) (htotal ▸ hlt)
        refine ⟨request, List.mem_append_left _ ?_, heq⟩
        rw [Outstanding.hear, hanswers]
        exact hmem
      · exact absurd hlt (Nat.not_lt.mpr (hend offset hoff))
    · intro received sends hat'
      rw [hat] at hat'
      cases hat'

theorem Outstanding.Open.spend_iff (ho : p.Open) {offset : ℕ} :
    (p.spend offset).Open ↔ AtChunks p (.lost offset) := by
  constructor
  · rintro h peer before hphase hlt hoff
    obtain ⟨request, hmem, heq⟩ := h peer before offset hphase hoff hlt
    exact of_decide_eq_true (List.mem_filter.mp hmem).2 heq
  · intro h peer before other hphase hoff hlt
    obtain ⟨request, hmem, rfl⟩ := ho peer before other hphase hoff hlt
    refine ⟨request, List.mem_filter.mpr ⟨hmem, decide_eq_true fun heq => ?_⟩, rfl⟩
    exact h peer before hphase (heq ▸ hlt) (heq ▸ hoff)

theorem spawn_charted : Charted (.spawn transport fileSize) where
  whole := .inl (Nat.dvd_zero _)
  asked _ _ hlt := absurd hlt (Nat.not_lt_zero _)
  requests := nofun
  spent := nofun

theorem spawn_open : (Outstanding.spawn transport fileSize).Open := by
  intro peer before offset hphase
  cases transport <;> cases hphase

def ChannelEvent.download : ChannelEvent × List Output → Trace Event Output
  | (.client e, os) => [(e, os)]
  | (.lost _, _) => []

theorem awaiting_run {tr : Trace ChannelEvent Output}
    (h : (awaiting decrypt transport fileSize).Run tr p) :
    (downloadAsync decrypt transport fileSize).Run (tr.flatMap ChannelEvent.download)
      p.download := by
  refine EventMachine.Path.simulate Outstanding.download ChannelEvent.download h ?_
  intro p e q os _ hstep
  cases e with
  | client e =>
    obtain ⟨r, hr, hq⟩ := Option.map_eq_some_iff.mp hstep
    obtain ⟨rfl, rfl⟩ := Prod.mk.inj hq
    exact .single trivial hr
  | lost offset =>
    obtain ⟨rfl, -⟩ := Prod.mk.inj (Option.some.inj hstep)
    exact .refl

theorem awaiting_open_iff {tr : Trace ChannelEvent Output}
    (h : (awaiting decrypt transport fileSize).Run tr p) :
    (∀ pre suf q, tr = pre ++ suf → (awaiting decrypt transport fileSize).Run pre q → q.Open) ↔
      (awaiting decrypt transport fileSize).Path AtChunks (.spawn transport fileSize) tr p := by
  refine EventMachine.Path.guarded_iff_of (P := Outstanding.Open) (Q := Charted) h spawn_open
    spawn_charted fun tr p e q os hpath ho hc hstep => ?_
  cases e with
  | client e =>
    obtain ⟨r, hr, hq⟩ := Option.map_eq_some_iff.mp hstep
    obtain ⟨rfl, rfl⟩ := Prod.mk.inj hq
    have hs := run_sound (awaiting_run hpath)
    have hchange := Download.step_change hr
    exact (hchange.asking hs).open_iff ho hc ((hs.change hchange).total.trans hs.total.symm)
  | lost offset =>
    obtain ⟨rfl, -⟩ := Prod.mk.inj (Option.some.inj hstep)
    exact ⟨ho.spend_iff, fun _ => hc.spend offset⟩

/-- A transfer of a file that is not complete awaits a request for its offset in every state of a
run exactly if the request loops of the run find the file at chunks that are not spent, and no
answer is lost that a transfer needs next. The answer for the offset of the file is stored. -/
theorem transfer_stays_open {tr : Trace ChannelEvent Output}
    (h : (awaiting decrypt transport fileSize).Run tr p) :
    ((∀ pre suf q, tr = pre ++ suf → (awaiting decrypt transport fileSize).Run pre q → q.Open) ↔
      (awaiting decrypt transport fileSize).Path AtChunks (.spawn transport fileSize) tr p) ∧
    ∀ offset data sends io d os, p.download.offset = some offset →
      offset < p.download.state.totalLen →
      p.download.step decrypt (.peerMessage (some (.dataResponse offset data)) sends io) =
        some (d, os) → storedBytes os = data := by
  refine ⟨awaiting_open_iff h, fun offset data sends io d os hoff hlt hstep => ?_⟩
  have hst : p.download.state.decryptedFile.started ≠ true := by
    intro hst
    have hend := offset_started hst hoff
    have htotal := run_total (awaiting_run h)
    omega
  have haccepts : p.download.accepts (.peerMessage (some (.dataResponse offset data)) sends io) =
      some data := if_pos hoff
  rw [(Download.step_change hstep).stored, if_neg hst]
  simp only [Download.brings, haccepts, Option.getD_some]

/-- The relay writes ten bytes between two p2p attempts; the transfer then waits for an answer
that it refuses. -/
theorem transfer_closed :
    ∃ tr d, (awaiting unframe .both 0).Run tr ⟨d, [⟨0, 28⟩], []⟩ ∧
      d.phase = .transferring .receiving (some 10) ∧ d.offset = some 10 ∧
      d.state.totalLen = 28 := by
  obtain ⟨tr, d, hexec, hphase, hoff, htotal⟩ : ∃ tr d,
      (awaiting unframe .both 0).exec (.spawn .both 0)
        [.client (.started true), .client (.offered true), .client (.peerOpened none []),
          .client (.peerMessage (some .hello) none []), .client .peerFailed,
          .client .relayRequest, .client .relayResponse,
          .client (.relayChunk (List.replicate 10 0)), .client (.offered true),
          .client (.peerMessage (some .hello) none [])] = some (tr, ⟨d, [⟨0, 28⟩], []⟩) ∧
        d.phase = .transferring .receiving (some 10) ∧ d.offset = some 10 ∧
        d.state.totalLen = 28 := ⟨_, _, rfl, rfl, rfl, rfl⟩
  exact ⟨tr, d, EventMachine.exec_run _ hexec, hphase, hoff, htotal⟩

theorem transfer_stays_open_reconnected :
    ∃ tr p, (awaiting unframe .both 0).Run tr p ∧
      p.download.phase = .transferring .receiving (some 0) ∧
      ∀ pre suf q, tr = pre ++ suf → (awaiting unframe .both 0).Run pre q → q.Open := by
  obtain ⟨tr, p, hrun, hphase, hpath⟩ : ∃ tr p, (awaiting unframe .both 0).Run tr p ∧
      p.download.phase = .transferring .receiving (some 0) ∧
      (awaiting unframe .both 0).Path AtChunks (.spawn .both 0) tr p := by
    refine ⟨_, _, EventMachine.exec_run [.client (.started true), .client (.offered true),
      .client (.peerOpened none []), .client (.peerMessage (some .hello) none []),
      .client .peerFailed, .client .relayRequest, .client (.offered true),
      .client (.peerMessage (some .hello) none [])] rfl, rfl, ?_⟩
    have hnone (p : Outstanding) (e : Event) (hat : p.download.requestsAt e = none) :
        AtChunks p (.client e) := by
      intro received sends h
      rw [hat] at h
      cases h
    refine .snoc (.snoc (.snoc (.snoc (.snoc (.snoc (.snoc (.snoc
      (.refl : EventMachine.Path _ _ _ [] _) (hnone _ _ rfl) rfl) (hnone _ _ rfl) rfl)
      (hnone _ _ rfl) rfl) ?_ rfl) (hnone _ _ rfl) rfl) (hnone _ _ rfl) rfl)
      (hnone _ _ rfl) rfl) ?_ rfl
    · rintro received sends ⟨⟩ - -
      exact ⟨Nat.dvd_zero _, nofun⟩
    · rintro received sends ⟨⟩ - -
      exact ⟨Nat.dvd_zero _, nofun⟩
  exact ⟨tr, p, hrun, hphase, (transfer_stays_open hrun).1.mpr hpath⟩

end Glopfile.Client

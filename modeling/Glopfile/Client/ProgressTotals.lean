import Glopfile.Client.Progress

/-!
# The progress a download reports

The p2p task reports against `total_len`, the length of the ciphertext that both tasks count.
The relay task counts the same bytes but reports against the size in the metadata, which is
that of the plaintext: 28 bytes less. So the reports of a download agree exactly when none
of its bytes came from the relay (`progress_agrees`).
-/

namespace Glopfile.Client

open EventMachine (Trace)

def Output.progressState : Output → Option (ProgressState ℕ)
  | .progress current total => some ⟨current, total⟩
  | _ => none

def progressStates (os : List Output) : List (ProgressState ℕ) := os.filterMap Output.progressState

def reported (tr : Trace Event Output) : List (ProgressState ℕ) :=
  tr.flatMap fun p => progressStates p.2

/-- Every report is in bytes of ciphertext and within them. -/
def Counted (fileSize : ℕ) (states : List (ProgressState ℕ)) : Prop :=
  ∀ state ∈ states, state.total = ciphertextLen fileSize ∧ state.current ≤ state.total

structure Agrees (fileSize : ℕ) (states : List (ProgressState ℕ)) : Prop where
  counted : Counted fileSize states
  last : ∃ state, states.getLast? = some state ∧ state.current = state.total

namespace Download

def FromPeer (d : Download) (e : Event) : Prop := (∀ data, e ≠ .relayChunk data) ∧ d.Fits e

end Download

variable {decrypt : List UInt8 → Option (List UInt8)} {transport : Transport} {fileSize : ℕ}
  {d d' : Download} {e : Event} {os : List Output} {tr : Trace Event Output}

def Reports (d : Download) (os : List Output) : Prop :=
  progressStates os = [] ∧ storedBytes os = [] ∨
    ∃ offset, d.offset = some offset ∧
      progressStates os = [⟨offset + (storedBytes os).length, d.state.totalLen⟩]

section Steps

@[simp] theorem progressStates_append (os os' : List Output) :
    progressStates (os ++ os') = progressStates os ++ progressStates os' :=
  List.filterMap_append

@[simp] theorem reported_snoc : reported (tr ++ [(e, os)]) = reported tr ++ progressStates os := by
  simp [reported]

theorem progressStates_nil (h : ∀ o ∈ os, o.progressState = none) : progressStates os = [] :=
  List.filterMap_eq_nil_iff.2 h

theorem Reports.nothing : Reports d [] := .inl ⟨rfl, rfl⟩

theorem Reports.append {os' : List Output} (h : Reports d os) (hprogress : progressStates os' = [])
    (hstored : storedBytes os' = []) : Reports d (os ++ os') := by
  unfold Reports
  rw [progressStates_append, storedBytes_append, hprogress, hstored, List.append_nil,
    List.append_nil]
  exact h

theorem Stored.reports {file : DecryptedFile} {outputs : List Output}
    (h : Stored d e file outputs) : Reports d outputs := by
  cases h with
  | nothing => exact .nothing
  | response hoff hacc hwrite =>
    refine .inr ⟨_, hoff, ?_⟩
    simp only [storedBytes, Output.bytes, List.flatMap_cons, List.flatMap_nil, List.append_nil]
    rfl

theorem progressStates_requestData {received fuel : ℕ} {s : DownloadState} {sends : Option ℕ} :
    progressStates (DownloadState.requestData received fuel s sends).outputs = [] := by
  refine progressStates_nil fun o ho => ?_
  obtain ⟨request, rfl⟩ := DownloadState.requestData_outputs ho
  rfl

theorem progressStates_finish {s : DownloadState} {sends : Option ℕ} {io : List IoResult} :
    progressStates (s.finish decrypt sends io).outputs = [] := by
  obtain ⟨_, _, _, _, ⟨_, _, h⟩ | ⟨_, _, _, h⟩ | ⟨_, _, h⟩ | ⟨_, _, h⟩ | ⟨_, _, h⟩⟩ :=
    finish_cases decrypt s sends io
  all_goals rw [h]; rfl

theorem Handles.reports {h : Handled} (hh : Handles decrypt d e h) : Reports d h.outputs := by
  cases hh with
  | ignored => exact .nothing
  | refused => exact .nothing
  | poisoned => exact .nothing
  | requests hsends hst =>
    exact hst.reports.append progressStates_requestData storedBytes_requestData
  | finishes hsends hst => exact hst.reports.append progressStates_finish storedBytes_finish
  | flushed => exact Reports.nothing.append progressStates_finish storedBytes_finish

theorem Download.peerReturned_outputs (flow : ControlFlow) :
    (d.peerReturned flow).2 = [] ∨ (d.peerReturned flow).2 = [.finishDownload] := by
  unfold Download.peerReturned
  cases d.phase with
  | transferring peer before =>
    cases flow with
    | continues => exact .inl rfl
    | breaks => exact .inr rfl
  | fallback peer relay =>
    cases flow with
    | continues => cases d.offset <;> exact .inl rfl
    | breaks => exact .inl rfl
  | connecting peer => cases flow <;> exact .inl rfl
  | _ => exact .inl rfl

theorem Download.peerHandled_outputs (h : Handled) :
    ∃ outputs, (d.peerHandled h).2 = h.outputs ++ outputs ∧
      (outputs = [] ∨ outputs = [.finishDownload]) := by
  unfold Download.peerHandled
  cases h.result with
  | returned flow => exact ⟨_, rfl, Download.peerReturned_outputs flow⟩
  | failed error => exact ⟨[], (List.append_nil _).symm, .inl rfl⟩
  | flushing => exact ⟨[], (List.append_nil _).symm, .inl rfl⟩
  | panicked panic => exact ⟨[], (List.append_nil _).symm, .inl rfl⟩

theorem Download.step_reports (h : d.step decrypt e = some (d', os))
    (hpeer : ∀ data, e ≠ .relayChunk data) : Reports d os := by
  have hruns := Download.step_runs h
  generalize hnext : (d', os) = next at hruns
  have hos : os = next.2 := congrArg Prod.snd hnext
  rw [hos]
  cases hruns with
  | @peerHandled _ h _ hcall =>
    obtain ⟨outputs, heq, rfl | rfl⟩ := d.peerHandled_outputs h
    · rw [heq]
      exact hcall.handles.reports.append rfl rfl
    · rw [heq]
      exact hcall.handles.reports.append rfl rfl
  | relayRequest =>
    unfold Download.relayRequest
    cases d.offset with
    | none => exact .nothing
    | some offset => exact .inl ⟨rfl, rfl⟩
  | relayChunk => exact absurd rfl (hpeer _)
  | opened => exact .inl ⟨rfl, rfl⟩
  | _ => exact .nothing

end Steps

section Runs

theorem ciphertextLen_ne (fileSize : ℕ) : fileSize ≠ ciphertextLen fileSize := by
  unfold ciphertextLen extraCiphertextLen
  omega

theorem Download.relayChunk_reports {data : List UInt8}
    (h : d.step decrypt (.relayChunk data) = some (d', os)) :
    ∃ current, ⟨current, d.contentSize⟩ ∈ progressStates os := by
  simp only [Download.step] at h
  split at h
  · next offset downloaded hrelay =>
    obtain ⟨rfl, rfl⟩ := Prod.mk.inj (Option.some.inj h)
    refine ⟨offset + (downloaded + data.length), ?_⟩
    generalize d.state.decryptedFile.writeAll data = written
    obtain ⟨file, _ | ⟨error⟩ | ⟨⟨⟩⟩⟩ := written
    all_goals exact List.mem_cons_self
  · cases h

theorem Change.contentSize (hc : Change decrypt d e d' os) : d'.contentSize = d.contentSize := by
  cases hc <;> rfl

theorem run_contentSize (h : (downloadAsync decrypt transport fileSize).Run tr d) :
    d.contentSize = fileSize :=
  EventMachine.Path.invariant (P := fun d => d.contentSize = fileSize) h rfl
    fun _ _ _ _ hd _ hstep => (Download.step_change hstep).contentSize.trans hd

theorem counted_nil : Counted fileSize [] := nofun

theorem counted_append {states states' : List (ProgressState ℕ)} :
    Counted fileSize (states ++ states') ↔ Counted fileSize states ∧ Counted fileSize states' :=
  List.forall_mem_append

structure Tells (fileSize : ℕ) (tr : Trace Event Output) : Prop where
  le : (received tr).length ≤ ciphertextLen fileSize
  last : ∀ state, (reported tr).getLast? = some state → state.current = (received tr).length
  any : received tr ≠ [] → reported tr ≠ []

theorem Tells.step (hs : Sound decrypt fileSize tr d) (ht : Tells fileSize tr)
    (hreports : Reports d os) (hcounted : Counted fileSize (progressStates os)) :
    Tells fileSize (tr ++ [(e, os)]) := by
  rcases hreports with ⟨hprogress, hstored⟩ | ⟨offset, hoff, hprogress⟩
  · refine ⟨?_, ?_, ?_⟩
    · rw [received_snoc, hstored, List.append_nil]
      exact ht.le
    · rw [reported_snoc, hprogress, received_snoc, hstored, List.append_nil, List.append_nil]
      exact ht.last
    · rw [reported_snoc, hprogress, received_snoc, hstored, List.append_nil, List.append_nil]
      exact ht.any
  · have hlen : offset + (storedBytes os).length = (received (tr ++ [(e, os)])).length := by
      rw [hs.stores.offset hoff, received_snoc, List.length_append]
    rw [hprogress, hlen] at hcounted
    obtain ⟨htotal, hle⟩ := hcounted _ List.mem_cons_self
    refine ⟨htotal ▸ hle, fun state hlast => ?_, fun _ => ?_⟩
    · rw [reported_snoc, hprogress, List.getLast?_append, List.getLast?_singleton,
        Option.some_or] at hlast
      rw [← Option.some.inj hlast, ← hlen]
    · rw [reported_snoc, hprogress]
      exact List.append_ne_nil_of_right_ne_nil _ (List.cons_ne_nil _ _)

theorem not_counted_relayChunk (h : (downloadAsync decrypt transport fileSize).Run tr d)
    (hstep : d.step decrypt e = some (d', os)) (hcounted : Counted fileSize (progressStates os)) :
    ∀ data, e ≠ .relayChunk data := by
  rintro data rfl
  obtain ⟨current, hmem⟩ := Download.relayChunk_reports hstep
  have htotal := (hcounted _ hmem).1
  rw [run_contentSize h] at htotal
  exact ciphertextLen_ne fileSize htotal

theorem run_tells (h : (downloadAsync decrypt transport fileSize).Run tr d) :
    Counted fileSize (reported tr) → Tells fileSize tr := by
  refine EventMachine.Path.history (P := fun tr _ => Counted fileSize (reported tr) →
    Tells fileSize tr) h (fun _ => ⟨Nat.zero_le _, nofun, fun hne => absurd rfl hne⟩) ?_
  intro tr d e d' os hpath ih _ hstep hcounted
  rw [reported_snoc, counted_append] at hcounted
  have hpeer := not_counted_relayChunk hpath hstep hcounted.2
  exact (ih hcounted.1).step (run_sound hpath) (Download.step_reports hstep hpeer) hcounted.2

theorem run_counted_iff (h : (downloadAsync decrypt transport fileSize).Run tr d)
    (hstep : d.step decrypt e = some (d', os)) :
    Counted fileSize (reported (tr ++ [(e, os)])) ↔
      Counted fileSize (reported tr) ∧ d.FromPeer e := by
  have hs := run_sound h
  have hiff := hs.received_le_iff (Download.step_change hstep)
  constructor
  · intro hcounted
    have htells := run_tells (.snoc h trivial hstep) hcounted
    rw [reported_snoc, counted_append] at hcounted
    exact ⟨hcounted.1, not_counted_relayChunk h hstep hcounted.2, (hiff.1 htells.le).2⟩
  · rintro ⟨hcounted, hpeer, hfits⟩
    rw [reported_snoc, counted_append]
    refine ⟨hcounted, ?_⟩
    have hle := hiff.2 ⟨(run_tells h hcounted).le, hfits⟩
    rcases Download.step_reports hstep hpeer with ⟨hprogress, -⟩ | ⟨offset, hoff, hprogress⟩
    · rw [hprogress]
      exact counted_nil
    · rw [hprogress]
      intro state hstate
      obtain rfl := List.mem_singleton.1 hstate
      refine ⟨hs.total, ?_⟩
      rwa [hs.stores.offset hoff, ← List.length_append, ← received_snoc (e := e), hs.total]

/-- The reports of a successful transfer agree exactly when nothing came from the relay, and
nothing past the expected length. -/
theorem progress_agrees (h : (downloadAsync decrypt transport fileSize).Run tr d)
    (hok : d.phase = .resolved (.ok ())) (hne : received tr ≠ []) :
    Agrees fileSize (reported tr) ↔
      (downloadAsync decrypt transport fileSize).Path Download.FromPeer
        (.spawn transport fileSize) tr d := by
  have hcounted : Counted fileSize (reported tr) ↔
      (downloadAsync decrypt transport fileSize).Path Download.FromPeer
        (.spawn transport fileSize) tr d :=
    EventMachine.Path.guarded_iff_history (P := fun tr _ => Counted fileSize (reported tr)) h
      counted_nil fun tr t e v os hpath hstep => run_counted_iff hpath hstep
  rw [← hcounted]
  refine ⟨Agrees.counted, fun hall => ⟨hall, ?_⟩⟩
  have htells := run_tells h hall
  obtain ⟨state, hlast⟩ := Option.ne_none_iff_exists'.1
    (fun hnone => htells.any hne (List.getLast?_eq_none_iff.1 hnone))
  have hcomplete := ((run_sound h).completed_iff (by rw [hok]; rfl)).2 htells.le
  refine ⟨state, hlast, ?_⟩
  rw [htells.last state hlast, (hall state (List.mem_of_getLast? hlast)).1]
  exact hcomplete.2.1

theorem progress_agrees_peer :
    ∃ tr d, reported tr = [⟨20, 29⟩, ⟨29, 29⟩] ∧ Agrees 1 (reported tr) ∧
      (downloadAsync unframe .both 1).Path Download.FromPeer (.spawn .both 1) tr d := by
  obtain ⟨tr, d, hexec, hok, hreceived, hreported⟩ : ∃ tr d,
      (downloadAsync unframe .both 1).exec (.spawn .both 1)
        [.started true, .offered true, .peerOpened none [], .peerMessage (some .hello) none [],
          .peerMessage (some (.dataResponse 0 (List.replicate 20 0))) none [],
          .peerMessage (some (.dataResponse 20 (List.replicate 9 0))) none
            [.ready 0, .ready 1, .ready 0, .ready 0], .finished true] =
        some (tr, d) ∧ d.phase = .resolved (.ok ()) ∧ received tr = List.replicate 29 0 ∧
        reported tr = [⟨20, 29⟩, ⟨29, 29⟩] := ⟨_, _, rfl, rfl, rfl, rfl⟩
  have hne : received tr ≠ [] := by
    rw [hreceived]
    exact List.cons_ne_nil _ _
  have hagrees : Agrees 1 (reported tr) := by
    rw [hreported]
    exact ⟨by unfold Counted; decide, _, rfl, rfl⟩
  exact ⟨tr, d, hreported, hagrees,
    (progress_agrees (EventMachine.exec_run _ hexec) hok hne).mp hagrees⟩

/-- The relay reports 29 bytes of one. -/
theorem relay_progress_disagrees :
    ∃ tr d, (downloadAsync unframe .relay 1).Run tr d ∧ d.phase = .resolved (.ok ()) ∧
      received tr ≠ [] ∧ ¬ Agrees 1 (reported tr) := by
  obtain ⟨tr, d, hexec, hok, hreceived, hreported⟩ : ∃ tr d,
      (downloadAsync unframe .relay 1).exec (.spawn .relay 1)
        [.relayRequest, .relayResponse, .relayChunk (List.replicate 29 0),
          .relayEnd [.ready 0, .ready 1, .pending], .relayFlush [.ready 0, .ready 0]] =
        some (tr, d) ∧ d.phase = .resolved (.ok ()) ∧ received tr = List.replicate 29 0 ∧
        reported tr = [⟨29, 1⟩] := ⟨_, _, rfl, rfl, rfl, rfl⟩
  refine ⟨tr, d, EventMachine.exec_run _ hexec, hok, ?_, fun hagrees => ?_⟩
  · rw [hreceived]
    exact List.cons_ne_nil _ _
  · rw [hreported] at hagrees
    exact absurd (hagrees.counted _ List.mem_cons_self).2 (by decide)

end Runs

end Glopfile.Client

import Glopfile.Client.AskedRanges

/-!
# A p2p transfer

A download and its uploader, with the messages between them. The bytes received, those of the
answers under way and those of the requests under way follow one another and end at
`requested_offset`.
-/

namespace Glopfile.Client

open EventMachine (Trace)

section Trace
variable (tr : Trace TransferEvent TransferOutput)

def outputs : List Output := tr.flatMap fun p => p.2.filterMap TransferOutput.output

def requestsSent : List DataRequest := (outputs tr).filterMap Output.request

end Trace

variable {decrypt : List UInt8 → Option (List UInt8)} {transport : Transport} {fileSize : ℕ}
  {d d' : Download} {e : Event} {os os' : List Output}

/-- What a transfer has received, what is being answered and what is being requested follow
one another: the answers under way lead from the bytes received to `answered`, the requests
from there to `requested_offset`. -/
structure Exchange (encrypted : List UInt8) (os : List Output) (t : Transfer)
    (answered : ℕ) : Prop where
  sent : Segments Asks 0 (os.filterMap Output.message) t.download.state.requestedOffset
  asked : Segments Asks answered t.toUploader t.download.state.requestedOffset
  answers : t.download.phase.attempts = true →
    Segments (Answers encrypted) (storedBytes os).length t.toDownloader answered
  stored : storedBytes os <+: encrypted
  bounded : t.download.state.requestedOffset ≤ encrypted.length
  ahead : (storedBytes os).length ≤ t.download.state.requestedOffset
  within : t.download.state.requestedOffset ≤ (storedBytes os).length + maxP2pInflightDataLen
  requested : t.download.Requested
  readable : t.download.phase.attempts = true → t.download.offset ≠ none
  finishes : .transferFinished ∈ t.toUploader ∨ t.uploader = .finished →
    .transferFinished ∈ os.filterMap Output.message ∧ t.download.phase.succeeds = true
  uploads : t.uploader ≠ .panicked

theorem readAtExact_answers {f : EncryptedFile} {offset len : ℕ} (hlen : 0 < len)
    (hle : offset + len ≤ f.encryptedBytes.length) (hsize : f.encryptedBytes.length < 2 ^ 64) :
    ∃ data, f.readAtExact offset len = some data ∧
      Answers f.encryptedBytes offset (.dataResponse offset data) (offset + len) := by
  have hstop : min (offset + len) (2 ^ 64 - 1) = offset + len := by omega
  refine ⟨(f.encryptedBytes.take (offset + len)).drop offset, ?_, ?_⟩
  · simp only [EncryptedFile.readAtExact, hstop]
    exact if_pos ⟨Nat.le_add_right _ _, hle⟩
  · have hdata : ((f.encryptedBytes.take (offset + len)).drop offset).length = len := by
      simp only [List.length_drop, List.length_take]
      omega
    have htake : f.encryptedBytes.take offset ++
        (f.encryptedBytes.take (offset + len)).drop offset =
        f.encryptedBytes.take (offset + len) := by
      have hfirst : (f.encryptedBytes.take (offset + len)).take offset =
          f.encryptedBytes.take offset := by
        rw [List.take_take, Nat.min_eq_left (Nat.le_add_right _ _)]
      rw [← hfirst, List.take_append_drop]
    have hanswer : Answers f.encryptedBytes offset _ _ := .response
      (List.length_pos_iff.mp (hdata ▸ hlen)) (by rw [htake]; exact List.take_prefix _ _)
      (by omega)
    rwa [hdata] at hanswer

section Exchange
variable {encrypted : List UInt8} {t t' : Transfer} {answered : ℕ}

theorem Exchange.upload {s : UploadState} {sent : List TransferOutput}
    (h : Exchange s.encryptedFile.encryptedBytes os t answered)
    (hsize : s.encryptedFile.encryptedBytes.length < 2 ^ 64)
    (hstep : t.handleUpload s = some (t', sent)) :
    (∃ answered, Exchange s.encryptedFile.encryptedBytes os t' answered) ∧
      t'.download = t.download ∧ sent.filterMap TransferOutput.output = [] := by
  unfold Transfer.handleUpload at hstep
  split at hstep
  · rename_i message rest _ hmessage
    generalize hhandled : s.dataChannelMessage message = handled at hstep
    obtain ⟨task, outputs⟩ := handled
    obtain ⟨rfl, rfl⟩ := Prod.mk.inj (Option.some.inj hstep)
    have hasked := h.asked
    rw [hmessage] at hasked
    obtain ⟨mid, hfirst, hrest⟩ := hasked.uncons
    refine ⟨?_, rfl, by simp [TransferOutput.output, Function.comp_def]⟩
    have hfinishes (hor : .transferFinished ∈ rest ∨ UploaderTask.running = .finished) :
        .transferFinished ∈ os.filterMap Output.message ∧
          t.download.phase.succeeds = true := by
      rcases hor with hmem | hrunning
      · exact h.finishes (.inl (hmessage ▸ List.mem_cons_of_mem _ hmem))
      · cases hrunning
    cases hfirst with
    | hello =>
      obtain ⟨rfl, rfl⟩ := Prod.mk.inj hhandled
      exact ⟨answered, { h with
        asked := hrest
        answers := fun hattempts => (h.answers hattempts).append (.single .hello)
        finishes := hfinishes
        uploads := by simp }⟩
    | @request _ request hrequest =>
      obtain ⟨rfl, hpos, -, rfl⟩ := hrequest
      have hend := hrest.le fun _ _ _ => Asks.le
      obtain ⟨data, hread, hanswer⟩ := readAtExact_answers hpos
        (Nat.le_trans hend h.bounded) hsize
      simp only [UploadState.dataChannelMessage, hread] at hhandled
      obtain ⟨rfl, rfl⟩ := Prod.mk.inj hhandled
      exact ⟨request.offset + request.len, { h with
        asked := hrest
        answers := fun hattempts => (h.answers hattempts).append (.single hanswer)
        finishes := hfinishes
        uploads := by simp }⟩
    | finished =>
      obtain ⟨rfl, rfl⟩ := Prod.mk.inj hhandled
      exact ⟨answered, { h with
        asked := hrest
        answers := fun hattempts => (h.answers hattempts).append .nil
        finishes := fun _ => h.finishes (.inl (hmessage ▸ List.mem_cons_self))
        uploads := by simp }⟩
  · cases hstep

theorem Transfer.event_sends {event : TransferEvent} {rest : List UploaderMessage}
    (hevent : t.event event = some (e, rest)) {sends : Option ℕ}
    (hsends : d.requestSends e = some sends) : sends = none := by
  cases event with
  | started => obtain ⟨rfl, -⟩ := Prod.mk.inj (Option.some.inj hevent); cases hsends
  | offered => obtain ⟨rfl, -⟩ := Prod.mk.inj (Option.some.inj hevent); cases hsends
  | flush => obtain ⟨rfl, -⟩ := Prod.mk.inj (Option.some.inj hevent); cases hsends
  | failed => obtain ⟨rfl, -⟩ := Prod.mk.inj (Option.some.inj hevent); cases hsends
  | request => cases hevent
  | opened =>
    obtain ⟨rfl, -⟩ := Prod.mk.inj (Option.some.inj hevent)
    simp only [Download.requestSends] at hsends
    split_ifs at hsends
    exact (Option.some.inj hsends).symm
  | response io =>
    simp only [Transfer.event] at hevent
    split at hevent
    · cases hevent
    · rename_i message _ _
      obtain ⟨rfl, -⟩ := Prod.mk.inj (Option.some.inj hevent)
      cases message with
      | dataResponse => exact (Option.some.inj hsends).symm
      | hello =>
        simp only [Download.requestSends] at hsends
        split_ifs at hsends
        exact (Option.some.inj hsends).symm
      | unknown =>
        simp only [Download.requestSends] at hsends
        split_ifs at hsends
        exact (Option.some.inj hsends).symm

theorem Exchange.delivers {event : TransferEvent} {rest : List UploaderMessage}
    {tr : Trace Event Output} (h : Exchange encrypted os t answered)
    (hs : Sound decrypt fileSize tr t.download) (hreceived : received tr = storedBytes os)
    (hsize : encrypted.length = ciphertextLen fileSize)
    (hattempts : t.download.phase.attempts = true) (hevent : t.event event = some (e, rest)) :
    ∃ bytes, (if t.download.state.decryptedFile.started then [] else t.download.brings e) =
        bytes ∧ storedBytes os ++ bytes <+: encrypted ∧
      Segments (Answers encrypted) ((storedBytes os).length + bytes.length) rest answered := by
  have hquiet (he : t.download.brings e = []) (hrest : Segments (Answers encrypted)
      (storedBytes os).length rest answered) :
      ∃ bytes, (if t.download.state.decryptedFile.started then [] else t.download.brings e) =
          bytes ∧ storedBytes os ++ bytes <+: encrypted ∧
        Segments (Answers encrypted) ((storedBytes os).length + bytes.length) rest answered := by
    refine ⟨[], by rw [he, ite_self], ?_, hrest⟩
    rw [List.append_nil]
    exact h.stored
  have hanswers := h.answers hattempts
  cases event with
  | started =>
    obtain ⟨rfl, rfl⟩ := Prod.mk.inj (Option.some.inj hevent)
    exact hquiet rfl hanswers
  | offered =>
    obtain ⟨rfl, rfl⟩ := Prod.mk.inj (Option.some.inj hevent)
    exact hquiet rfl hanswers
  | opened =>
    obtain ⟨rfl, rfl⟩ := Prod.mk.inj (Option.some.inj hevent)
    exact hquiet rfl hanswers
  | flush =>
    obtain ⟨rfl, rfl⟩ := Prod.mk.inj (Option.some.inj hevent)
    exact hquiet rfl hanswers
  | failed =>
    obtain ⟨rfl, rfl⟩ := Prod.mk.inj (Option.some.inj hevent)
    exact hquiet rfl hanswers
  | request => cases hevent
  | response io =>
    simp only [Transfer.event] at hevent
    split at hevent
    · cases hevent
    · rename_i message rest' hmessages
      obtain ⟨rfl, rfl⟩ := Prod.mk.inj (Option.some.inj hevent)
      rw [hmessages] at hanswers
      obtain ⟨mid, hfirst, hrest⟩ := hanswers.uncons
      cases hfirst with
      | hello => exact hquiet rfl hrest
      | @response data hne hprefix hle =>
        obtain ⟨n, hoff⟩ := Option.ne_none_iff_exists'.mp (h.readable hattempts)
        have hn := hs.stores.offset hoff
        rw [hreceived] at hn
        have hbrings : t.download.brings (.peerMessage (some (.dataResponse
            (storedBytes os).length data)) none io) = data := by
          simp [Download.brings, Download.accepts, hoff, hn]
        have hstored : storedBytes os = encrypted.take (storedBytes os).length :=
          List.prefix_iff_eq_take.mp h.stored
        have hlen := hprefix.length_le
        rw [List.length_append, List.length_take, Nat.min_eq_left hle] at hlen
        have hst : t.download.state.decryptedFile.started ≠ true := by
          intro hst
          have hfull := hs.stores.started hst
          rw [hreceived, hs.size, ← hsize] at hfull
          exact hne (List.length_eq_zero_iff.mp (by omega))
        refine ⟨data, by rw [if_neg hst, hbrings], ?_, hrest⟩
        rw [hstored]
        exact hprefix

theorem Exchange.window {event : TransferEvent} {rest : List UploaderMessage}
    {tr : Trace Event Output} (h : Exchange encrypted os t answered)
    (hs : Sound decrypt fileSize tr t.download) (hreceived : received tr = storedBytes os)
    (hsize : encrypted.length = ciphertextLen fileSize)
    (hattempts : t.download.phase.attempts = true) (hevent : t.event event = some (e, rest))
    (hc : Change decrypt t.download e d' os') :
    (∀ received sends, t.download.requestsAt e = some (received, sends) →
      received = (storedBytes (os ++ os')).length ∧ sends = none) ∧
    (storedBytes (os ++ os')).length ≤ t.download.state.requestedOffset ∧
    d'.state.requestedOffset = t.download.windowAfter t.download.state.requestedOffset e := by
  obtain ⟨bytes, hbytes, -, hrest⟩ := h.delivers hs hreceived hsize hattempts hevent
  have htotal : t.download.state.totalLen = t.download.state.decryptedFile.fileSize :=
    hs.total.trans hs.size.symm
  have hlen : (storedBytes (os ++ os')).length = (storedBytes os).length + bytes.length := by
    rw [storedBytes_append, hc.stored, hbytes, List.length_append]
  have hat (received : ℕ) (sends : Option ℕ)
      (hat : t.download.requestsAt e = some (received, sends)) :
      received = (storedBytes (os ++ os')).length ∧ sends = none := by
    have hst : t.download.state.decryptedFile.started ≠ true := by
      intro hst
      rw [requestsAt_started htotal hst] at hat
      cases hat
    rw [if_neg hst] at hbytes
    unfold Download.requestsAt at hat
    split at hat
    · rename_i sends' offset hsends hoff
      split_ifs at hat
      obtain ⟨rfl, rfl⟩ := Prod.mk.inj (Option.some.inj hat)
      rw [hlen, hbytes, hs.stores.offset hoff, hreceived]
      exact ⟨rfl, t.event_sends hevent hsends⟩
    · cases hat
  have hahead : (storedBytes (os ++ os')).length ≤ t.download.state.requestedOffset := by
    rw [hlen]
    exact Nat.le_trans (hrest.le fun _ _ _ => Answers.le) (h.asked.le fun _ _ _ => Asks.le)
  refine ⟨hat, hahead, ?_⟩
  rcases hc.window htotal with ⟨-, hover⟩ | ⟨-, -, hafter⟩
  · refine absurd (fun received sends hsome => ?_) hover
    rw [(hat received sends hsome).1]
    exact hahead
  · exact hafter

theorem Exchange.download {event : TransferEvent} {rest : List UploaderMessage}
    {tr : Trace Event Output} (h : Exchange encrypted os t answered)
    (hs : Sound decrypt fileSize tr t.download) (hreceived : received tr = storedBytes os)
    (hsize : encrypted.length = ciphertextLen fileSize)
    (hattempts : t.download.phase.attempts = true) (hevent : t.event event = some (e, rest))
    (hc : Change decrypt t.download e d' os') :
    Exchange encrypted (os ++ os')
      { t with
        download := d'
        toUploader := t.toUploader ++ os'.filterMap Output.message
        toDownloader := rest } answered := by
  obtain ⟨bytes, hbytes, hstored, hrest⟩ := h.delivers hs hreceived hsize hattempts hevent
  obtain ⟨hat, hahead, hafter⟩ := h.window hs hreceived hsize hattempts hevent hc
  have hbytes' : storedBytes (os ++ os') = storedBytes os ++ bytes := by
    rw [storedBytes_append, hc.stored, hbytes]
  have htotal : t.download.state.totalLen = encrypted.length := hs.total.trans hsize.symm
  have hgrows : (storedBytes os).length ≤ (storedBytes (os ++ os')).length := by
    rw [hbytes', List.length_append]
    exact Nat.le_add_right _ _
  have hbounds : t.download.state.requestedOffset ≤ d'.state.requestedOffset ∧
      d'.state.requestedOffset ≤ encrypted.length ∧
      d'.state.requestedOffset ≤ (storedBytes (os ++ os')).length + maxP2pInflightDataLen := by
    have hbounded := h.bounded
    have hwithin := h.within
    unfold Download.windowAfter at hafter
    split at hafter
    · rename_i received sends hsome
      obtain ⟨rfl, rfl⟩ := hat received sends hsome
      rw [hafter]
      simp only [reach, windowEnd, htotal]
      omega
    · omega
  exact {
    sent := by
      rw [List.filterMap_append]
      exact h.sent.append hc.asks
    asked := h.asked.append hc.asks
    answers := fun _ => by
      rw [hbytes', List.length_append]
      exact hrest
    stored := by
      rw [hbytes']
      exact hstored
    bounded := hbounds.2.1
    ahead := Nat.le_trans hahead hbounds.1
    within := hbounds.2.2
    requested := hc.requested (hs.total.trans hs.size.symm)
      (fun sends => t.event_sends hevent) h.requested
    readable := hc.goesOn (h.readable hattempts)
    finishes := fun hfinished => by
      have hrunning : t.download.phase.succeeds ≠ true := by
        intro hsucceeds
        rw [Phase.succeeds_attempts hsucceeds] at hattempts
        cases hattempts
      rcases hfinished with hmem | hdone
      · rcases List.mem_append.mp hmem with hold | hnew
        · exact absurd (h.finishes (.inl hold)).2 hrunning
        · rw [List.filterMap_append]
          exact ⟨List.mem_append_right _ hnew, hc.breaks hnew⟩
      · exact absurd (h.finishes (.inr hdone)).2 hrunning
    uploads := h.uploads }

end Exchange

section Run
variable {s : UploadState} {t t' : Transfer} {event : TransferEvent} {sent : List TransferOutput}
  {tr : Trace TransferEvent TransferOutput}

theorem outputs_snoc :
    outputs (tr ++ [(event, sent)]) = outputs tr ++ sent.filterMap TransferOutput.output := by
  simp [outputs]

theorem transfer_step_cases
    (h : (transfer decrypt transport fileSize s).step t event = some (t', sent)) :
    (event = .request ∧ t.handleUpload s = some (t', sent)) ∨
    ∃ e rest d' os, t.event event = some (e, rest) ∧ t.download.phase.attempts = true ∧
      t.download.step decrypt e = some (d', os) ∧
      t' = { t with
        download := d'
        toUploader := t.toUploader ++ os.filterMap Output.message
        toDownloader := rest } ∧ sent.filterMap TransferOutput.output = os := by
  have hclient (hbind : (t.event event).bind (fun p => t.handleDownload decrypt p.1 p.2) =
      some (t', sent)) : ∃ e rest d' os, t.event event = some (e, rest) ∧
        t.download.phase.attempts = true ∧ t.download.step decrypt e = some (d', os) ∧
        t' = { t with
          download := d'
          toUploader := t.toUploader ++ os.filterMap Output.message
          toDownloader := rest } ∧ sent.filterMap TransferOutput.output = os := by
    obtain ⟨⟨e, rest⟩, hevent, hhandled⟩ := Option.bind_eq_some_iff.mp hbind
    simp only [Transfer.handleDownload] at hhandled
    split_ifs at hhandled with hattempts
    obtain ⟨⟨d', os⟩, hstep, hpair⟩ := Option.map_eq_some_iff.mp hhandled
    obtain ⟨rfl, rfl⟩ := Prod.mk.inj hpair
    refine ⟨e, rest, d', os, hevent, hattempts, hstep, rfl, ?_⟩
    simp [List.filterMap_map, Function.comp_def, TransferOutput.output]
  cases event with
  | request => exact .inl ⟨rfl, h⟩
  | started => exact .inr (hclient h)
  | offered => exact .inr (hclient h)
  | opened => exact .inr (hclient h)
  | response => exact .inr (hclient h)
  | flush => exact .inr (hclient h)
  | failed => exact .inr (hclient h)

theorem spawn_exchange {encrypted : List UInt8} : Exchange encrypted []
    ⟨.spawn transport fileSize, .running, [], []⟩ 0 where
  sent := .nil
  asked := .nil
  answers _ := .nil
  stored := List.nil_prefix
  bounded := Nat.zero_le _
  ahead := Nat.le_refl _
  within := Nat.zero_le _
  requested peer before h := by cases transport <;> cases h
  readable _ := by simp [Download.offset, Download.spawn, DecryptedFile.new, DecryptedFile.offset]
  finishes h := by simp at h
  uploads := by simp

theorem transfer_exchange (hsize : s.encryptedFile.len = ciphertextLen fileSize)
    (h : (transfer decrypt transport fileSize s).Run tr t) :
    ∃ tr' answered, (downloadAsync decrypt transport fileSize).Run tr' t.download ∧
      received tr' = storedBytes (outputs tr) ∧
      Exchange s.encryptedFile.encryptedBytes (outputs tr) t answered := by
  refine EventMachine.Path.history
    (P := fun (tr : Trace TransferEvent TransferOutput) (t : Transfer) => ∃ tr' answered,
      (downloadAsync decrypt transport fileSize).Run tr' t.download ∧
        received tr' = storedBytes (outputs tr) ∧
        Exchange s.encryptedFile.encryptedBytes (outputs tr) t answered)
    h ⟨[], 0, .refl, rfl, spawn_exchange⟩ ?_
  rintro tr t event t' sent - ⟨tr', answered, hrun, hreceived, hexchange⟩ - hstep
  have hfits : s.encryptedFile.encryptedBytes.length < 2 ^ 64 := by
    rw [EncryptedFile.len] at hsize
    rw [hsize]
    exact Nat.mod_lt _ (by decide)
  rcases transfer_step_cases hstep with ⟨-, hupload⟩ |
    ⟨e, rest, d', os, hevent, hattempts, hclient, rfl, hos⟩
  · obtain ⟨⟨answered', hexchange'⟩, hsame, hquiet⟩ := hexchange.upload hfits hupload
    rw [outputs_snoc, hquiet, List.append_nil, hsame]
    exact ⟨tr', answered', hrun, hreceived, hexchange'⟩
  · have hc := Download.step_change hclient
    rw [outputs_snoc, hos]
    refine ⟨tr' ++ [(e, os)], answered, .snoc hrun trivial hclient, ?_,
      hexchange.download (run_sound hrun) hreceived hsize hattempts hevent hc⟩
    rw [received_snoc, hreceived, storedBytes_append]

def DownloaderMessage.request : DownloaderMessage → Option DataRequest
  | .dataRequest request => some request
  | _ => none

theorem Exchange.tiles {encrypted : List UInt8} {answered : ℕ}
    (h : Exchange encrypted (outputs tr) t answered) :
    Tiles 0 (requestsSent tr) t.download.state.requestedOffset := by
  have hrequests : requestsSent tr =
      ((outputs tr).filterMap Output.message).filterMap DownloaderMessage.request := by
    rw [requestsSent, List.filterMap_filterMap]
    congr 1
    funext o
    cases o with
    | sent message => cases message <;> rfl
    | _ => rfl
  rw [hrequests]
  refine h.sent.filterMap ?_ ?_
  · rintro start _ request stop (_ | hasked | _) hsome
    · cases hsome
    · obtain rfl := Option.some.inj hsome
      exact hasked
    · cases hsome
  · rintro start _ stop (_ | _ | _) hnone
    · rfl
    · cases hnone
    · rfl

theorem Exchange.complete {encrypted : List UInt8} {answered : ℕ} {tr' : Trace Event Output}
    (h : Exchange encrypted os t answered) (hs : Sound decrypt fileSize tr' t.download)
    (hreceived : received tr' = storedBytes os) (hsize : encrypted.length = ciphertextLen fileSize)
    (hbreaks : t.download.phase.succeeds = true) :
    t.download.state.requestedOffset = encrypted.length ∧ storedBytes os = encrypted ∧
      t.download.state.decryptedFile.state = .complete ∧
      t.download.state.decryptedFile.file.Finished decrypt encrypted := by
  have hle : (received tr').length ≤ ciphertextLen fileSize := by
    rw [hreceived, ← hsize]
    exact h.stored.length_le
  obtain ⟨hstate, hlen, hfinished⟩ := (hs.completed_iff hbreaks).mpr hle
  rw [hreceived, ← hsize] at hlen
  have hall := h.stored.eq_of_length hlen
  rw [hreceived, hall] at hfinished
  refine ⟨?_, hall, hstate, hfinished⟩
  exact Nat.le_antisymm h.bounded (hlen ▸ h.ahead)

/-- While bytes are missing, a request for them or its answer is under way. -/
theorem Exchange.underway {encrypted : List UInt8} {answered : ℕ} {tr' : Trace Event Output}
    (h : Exchange encrypted os t answered) (hs : Sound decrypt fileSize tr' t.download)
    (hreceived : received tr' = storedBytes os) {peer : PeerTask} {offset : ℕ}
    (hphase : t.download.phase = .transferring peer none)
    (hoff : t.download.offset = some offset) (hmissing : offset < t.download.state.totalLen) :
    t.toDownloader ≠ [] ∨ t.toUploader ≠ [] := by
  by_contra hidle
  simp only [ne_eq, not_or, not_not] at hidle
  have hn := hs.stores.offset hoff
  rw [hreceived] at hn
  have hanswers := h.answers (by rw [hphase]; rfl)
  rw [hidle.1, ← hn] at hanswers
  have hasked := h.asked
  rw [hidle.2] at hasked
  have hend : offset = t.download.state.requestedOffset :=
    hanswers.eq_of_nil.trans hasked.eq_of_nil
  rcases h.requested peer none hphase offset hoff with hwindow | hfull
  · simp only [windowEnd, maxP2pInflightDataLen] at hwindow
    omega
  · omega

theorem Exchange.loop_ends {encrypted : List UInt8} {answered : ℕ} {tr' : Trace Event Output}
    {rest : List UploaderMessage} (h : Exchange encrypted os t answered)
    (hs : Sound decrypt fileSize tr' t.download) (hreceived : received tr' = storedBytes os)
    (hsize : encrypted.length = ciphertextLen fileSize)
    (hattempts : t.download.phase.attempts = true) (hevent : t.event event = some (e, rest))
    (hc : Change decrypt t.download e d' os') {position : ℕ} {sends : Option ℕ}
    (hat : t.download.requestsAt e = some (position, sends)) :
    d'.state.nextDataRequest position = .ok none := by
  obtain ⟨hposition, hahead, hafter⟩ := h.window hs hreceived hsize hattempts hevent hc
  obtain ⟨rfl, rfl⟩ := hposition position sends hat
  have htotal : d'.state.totalLen = t.download.state.totalLen :=
    (hs.change hc).total.trans hs.total.symm
  simp only [Download.windowAfter, hat, reach] at hafter
  have hle : (storedBytes (os ++ os')).length ≤ d'.state.requestedOffset := by
    rw [hafter]
    exact Nat.le_trans hahead (Nat.le_max_left _ _)
  rw [DownloadState.nextDataRequest_eq hle, if_neg]
  rw [htotal, hafter]
  exact Nat.not_lt.mpr (Nat.le_max_right _ _)

/-- The requests of a transfer are consecutive and stay within the window, every request loop
ends, and the uploader answers each request until `TransferFinished`. An answer is under way
while bytes are missing; once the downloader breaks, it has requested, received and written
the whole file. -/
theorem transfer_delivers (hsize : s.encryptedFile.len = ciphertextLen fileSize)
    (h : (transfer decrypt transport fileSize s).Run tr t) :
    Tiles 0 (requestsSent tr) t.download.state.requestedOffset ∧
    (∀ offset, t.download.offset = some offset →
      offset ≤ t.download.state.requestedOffset ∧
      t.download.state.requestedOffset - offset ≤ maxP2pInflightDataLen) ∧
    (∀ event e rest received sends t' sent, t.event event = some (e, rest) →
      t.download.requestsAt e = some (received, sends) →
      (transfer decrypt transport fileSize s).step t event = some (t', sent) →
      t'.download.state.nextDataRequest received = .ok none) ∧
    t.uploader ≠ .panicked ∧
    (t.uploader = .finished →
      .sent .transferFinished ∈ outputs tr ∧ t.download.phase.succeeds = true) ∧
    (∀ peer offset, t.download.phase = .transferring peer none →
      t.download.offset = some offset → offset < t.download.state.totalLen →
      t.toDownloader ≠ [] ∨ t.toUploader ≠ []) ∧
    (t.download.phase.succeeds = true →
      Tiles 0 (requestsSent tr) t.download.state.totalLen ∧
      storedBytes (outputs tr) = s.encryptedFile.encryptedBytes ∧
      t.download.state.decryptedFile.state = .complete ∧
      t.download.state.decryptedFile.file.Finished decrypt s.encryptedFile.encryptedBytes) := by
  obtain ⟨tr', answered, hrun, hreceived, hexchange⟩ := transfer_exchange hsize h
  have hs := run_sound hrun
  refine ⟨hexchange.tiles, fun offset hoff => ?_, ?_, hexchange.uploads, fun hfinished => ?_,
    fun peer offset => hexchange.underway hs hreceived, fun hbreaks => ?_⟩
  · have hn := hs.stores.offset hoff
    rw [hreceived] at hn
    rw [hn]
    exact ⟨hexchange.ahead, by have hwithin := hexchange.within; omega⟩
  · intro event e rest received sends t' sent hevent hat hstep
    rcases transfer_step_cases hstep with ⟨rfl, -⟩ |
      ⟨e', rest', d', os, hevent', hattempts, hclient, rfl, -⟩
    · cases hevent
    · obtain ⟨rfl, -⟩ := Prod.mk.inj (Option.some.inj (hevent.symm.trans hevent'))
      exact hexchange.loop_ends hs hreceived hsize hattempts hevent
        (Download.step_change hclient) hat
  · obtain ⟨hmem, hbreaks⟩ := hexchange.finishes (.inr hfinished)
    obtain ⟨o, ho, hmessage⟩ := List.mem_filterMap.mp hmem
    cases o with
    | sent message =>
      obtain rfl := Option.some.inj hmessage
      exact ⟨ho, hbreaks⟩
    | _ => cases hmessage
  · obtain ⟨hrequested, hrest⟩ := hexchange.complete hs hreceived hsize hbreaks
    refine ⟨?_, hrest⟩
    have htotal : t.download.state.totalLen = t.download.state.requestedOffset :=
      hs.total.trans (hsize.symm.trans hrequested.symm)
    rw [htotal]
    exact hexchange.tiles

theorem transfer_delivers_empty :
    ∃ tr t, (transfer unframe .both 0 ⟨⟨List.replicate 28 0⟩⟩).Run tr t ∧
      t.uploader = .finished ∧ requestsSent tr = [⟨0, 28⟩] ∧
      storedBytes (outputs tr) = List.replicate 28 0 := by
  obtain ⟨tr, t, hexec, huploader, hbreaks, hrequests⟩ : ∃ tr t,
      (transfer unframe .both 0 ⟨⟨List.replicate 28 0⟩⟩).exec
        ⟨.spawn .both 0, .running, [], []⟩
        [.started true, .offered true, .opened [], .request, .response [], .request,
          .response [.ready 0, .ready 0], .flush [.ready 0], .request] = some (tr, t) ∧
        t.uploader = .finished ∧ t.download.phase.succeeds = true ∧
        requestsSent tr = [⟨0, 28⟩] := ⟨_, _, rfl, rfl, rfl, rfl⟩
  have hrun := EventMachine.exec_run _ hexec
  obtain ⟨-, -, -, -, -, -, hcomplete⟩ := transfer_delivers rfl hrun
  exact ⟨tr, t, hrun, huploader, hrequests, (hcomplete hbreaks).2.1⟩

end Run

end Glopfile.Client

import Mathlib.Data.List.Perm.Subperm
import Mathlib.Data.Nat.Init
import Mathlib.Order.WellFounded
import Glopfile.Client.Completion

/-!
# The fallback loop ends

`download_p2p` awaits one stage after another: the connection, the first transfer, and then
in every pass of its loop the relayed transfer beside a new connection (`fallback`) and
the transfer over that connection, which interrupts the relayed one. `Stage.Next` lists where
each stage may lead; `staged` logs the stages of a run, with the offset each begins at.

Only a transfer that has moved the offset leads into another pass. So while the buffer keeps
within the file, the offsets at which the passes begin ascend, and `rank` falls with every
change of stage.
-/

namespace Glopfile.Client

open EventMachine (Trace)

inductive Stage
  | starting
  | connecting
  | transferring (before : Option ℕ)
  | fallback
  | relaying
  | ended
  deriving DecidableEq, Repr

def Phase.stage : Phase → Stage
  | .starting => .starting
  | .connecting _ => .connecting
  | .transferring _ before | .finishing before => .transferring before
  | .fallback _ _ => .fallback
  | .continuing _ | .relaying _ => .relaying
  | .resolved _ | .panicked _ => .ended

inductive Stage.Next (offset : Option ℕ) : Stage → Stage → Prop
  | connects : Next offset .starting .connecting
  | connected : Next offset .connecting (.transferring none)
  | notConnected : Next offset .connecting .fallback
  | fallsBack : Next offset (.transferring none) .fallback
  | interrupts {before : ℕ} : offset = some before →
      Next offset .fallback (.transferring (some before))
  | relayContinues : Next offset .fallback .relaying
  | again {before after : ℕ} : offset = some after → after ≠ before →
      Next offset (.transferring (some before)) .fallback
  | noProgress {before : ℕ} : offset = some before →
      Next offset (.transferring (some before)) .relaying
  | ends {stage : Stage} : Next offset stage .ended

namespace Download

def stage (d : Download) : Stage := d.phase.stage

def receivedLen (d : Download) : ℕ :=
  match d.state.decryptedFile.state with
  | .unwritten data => data.length
  | _ => d.state.decryptedFile.fileSize

def rank (d : Download) : ℕ :=
  match d.stage with
  | .starting => 2 * d.state.totalLen + 6
  | .connecting => 2 * d.state.totalLen + 5
  | .transferring none => 2 * d.state.totalLen + 4
  | .fallback => 2 * (d.state.totalLen - d.receivedLen) + 3
  | .transferring (some before) => 2 * (d.state.totalLen - before) + 2
  | .relaying => 1
  | .ended => 0

end Download

abbrev StageLog := List (Stage × Option ℕ)

def StageLog.after (decrypt : List UInt8 → Option (List UInt8)) (d : Download) (log : StageLog)
    (e : Event) : StageLog :=
  match d.step decrypt e with
  | some (d', _) => if d'.stage = d.stage then log else log ++ [(d'.stage, d'.offset)]
  | none => log

namespace StageLog

def passes (log : StageLog) : List (Option ℕ) :=
  (log.filter fun entry => entry.1 = .fallback).map Prod.snd

def interruptions (log : StageLog) : ℕ :=
  log.countP fun entry => match entry.1 with
    | .transferring (some _) => true
    | _ => false

def Ascends (pass later : Option ℕ) : Prop := ∃ n m, pass = some n ∧ later = some m ∧ n < m

end StageLog

def staged (decrypt : List UInt8 → Option (List UInt8)) (transport : Transport) (fileSize : ℕ) :
    EventMachine (Download × StageLog) Event Output :=
  (downloadAsync decrypt transport fileSize).withGhost [] fun d log e _ => log.after decrypt d e

/-- An endless download, none of whose writes takes the buffer past the expected length. -/
structure Endless (decrypt : List UInt8 → Option (List UInt8)) (transport : Transport)
    (fileSize : ℕ) (ds : ℕ → Download) : Prop where
  init : ds 0 = .spawn transport fileSize
  step : ∀ i, ∃ e os, (ds i).Fits e ∧ (ds i).step decrypt e = some (ds (i + 1), os)

variable {decrypt : List UInt8 → Option (List UInt8)} {transport : Transport} {fileSize : ℕ}
  {d d' : Download} {e : Event} {os : List Output} {tr : Trace Event Output}

section Stages

def Stage.Goes (offset : Option ℕ) (stage next : Stage) : Prop :=
  next = stage ∨ stage.Next offset next

theorem Stage.Goes.kept {offset : Option ℕ} {stage : Stage} : stage.Goes offset stage := .inl rfl

theorem Stage.Goes.ended {offset : Option ℕ} {stage : Stage} : stage.Goes offset .ended :=
  .inr .ends

@[simp] theorem Phase.setRelay_stage (phase : Phase) (task : RelayTask) :
    (phase.setRelay task).stage = phase.stage := by
  cases phase <;> rfl

@[simp] theorem Phase.setPeer_stage (phase : Phase) (task : PeerTask) :
    (phase.setPeer task).stage = phase.stage := by
  cases phase <;> rfl

theorem Download.fallBack_stage (error : Error) {stage : Stage}
    (h : stage = .connecting ∨ stage = .transferring none) :
    stage.Goes (d.fallBack error).offset (d.fallBack error).stage := by
  unfold Download.fallBack
  cases d.transport with
  | both =>
    rcases h with rfl | rfl
    · exact .inr .notConnected
    · exact .inr .fallsBack
  | p2p => exact .ended
  | relay => exact .ended

theorem Download.transferAgain_stage (before : ℕ) :
    (Stage.transferring (some before)).Goes (d.transferAgain before).offset
      (d.transferAgain before).stage := by
  unfold Download.transferAgain
  cases hoff : d.offset with
  | none => exact .ended
  | some offset =>
    by_cases heq : offset = before
    · subst heq
      simp only [if_true]
      exact .inr (.noProgress hoff)
    · simp only [heq, if_false]
      exact .inr (.again hoff heq)

theorem Download.peerError_stage (error : Error) :
    d.stage.Goes (d.peerError error).offset (d.peerError error).stage := by
  unfold Download.peerError Download.stage
  cases hphase : d.phase with
  | connecting peer => exact Download.fallBack_stage error (.inl rfl)
  | transferring peer before =>
    cases before with
    | none => exact Download.fallBack_stage error (.inr rfl)
    | some before => exact Download.transferAgain_stage before
  | finishing before =>
    cases before with
    | none => exact Download.fallBack_stage error (.inr rfl)
    | some before => exact Download.transferAgain_stage before
  | fallback peer relay => exact .inr .relayContinues
  | starting => simpa [hphase] using Stage.Goes.kept
  | continuing relay => simpa [hphase] using Stage.Goes.kept
  | relaying relay => simpa [hphase] using Stage.Goes.kept
  | resolved result => simpa [hphase] using Stage.Goes.kept
  | panicked panic => simpa [hphase] using Stage.Goes.kept

theorem Download.peerReturned_stage (flow : ControlFlow) :
    d.stage.Goes (d.peerReturned flow).1.offset (d.peerReturned flow).1.stage := by
  unfold Download.peerReturned Download.stage
  cases hphase : d.phase with
  | connecting peer =>
    cases flow with
    | continues => exact .inr .connected
    | breaks => exact .ended
  | fallback peer relay =>
    cases flow with
    | continues =>
      cases hoff : d.offset with
      | none => exact .ended
      | some before => exact .inr (.interrupts hoff)
    | breaks => exact .ended
  | transferring peer before => cases flow <;> exact .kept
  | starting => simpa [hphase] using Stage.Goes.kept
  | finishing before => simpa [hphase] using Stage.Goes.kept
  | continuing relay => simpa [hphase] using Stage.Goes.kept
  | relaying relay => simpa [hphase] using Stage.Goes.kept
  | resolved result => simpa [hphase] using Stage.Goes.kept
  | panicked panic => simpa [hphase] using Stage.Goes.kept

theorem Download.peerHandled_stage (h : Handled) :
    d.stage.Goes (d.peerHandled h).1.offset (d.peerHandled h).1.stage := by
  unfold Download.peerHandled
  cases h.result with
  | returned flow => exact Download.peerReturned_stage (d := { d with state := h.state }) flow
  | failed error => exact Download.peerError_stage (d := { d with state := h.state }) error
  | flushing => exact .inl (Phase.setPeer_stage d.phase .flushing)
  | panicked panic => exact .ended

theorem Download.relayRequest_stage :
    d.stage.Goes d.relayRequest.1.offset d.relayRequest.1.stage := by
  unfold Download.relayRequest
  cases d.offset with
  | none => exact .ended
  | some offset => exact .inl (Phase.setRelay_stage d.phase _)

theorem Download.relayChunk_stage (offset downloaded : ℕ) (data : List UInt8) :
    d.stage.Goes (d.relayChunk offset downloaded data).1.offset
      (d.relayChunk offset downloaded data).1.stage := by
  unfold Download.relayChunk
  generalize d.state.decryptedFile.writeAll data = written
  obtain ⟨file, _ | ⟨error⟩ | ⟨⟨⟩⟩⟩ := written
  · exact .ended
  · exact .ended
  · exact .inl (Phase.setRelay_stage d.phase _)

theorem Download.relayClose_stage (io : List IoResult) :
    d.stage.Goes (d.relayClose decrypt io).offset (d.relayClose decrypt io).stage := by
  unfold Download.relayClose
  generalize d.state.decryptedFile.pollClose decrypt io = closed
  obtain ⟨file, result⟩ := closed
  cases result with
  | pending => exact .inl (Phase.setRelay_stage d.phase _)
  | ready => exact .ended
  | failed error => exact .ended
  | panicked => exact .ended

theorem Download.relayFlush_stage (io : List IoResult) :
    d.stage.Goes (d.relayFlush decrypt io).offset (d.relayFlush decrypt io).stage := by
  unfold Download.relayFlush
  generalize d.state.decryptedFile.pollFlush decrypt io = flushed
  obtain ⟨file, result⟩ := flushed
  cases result with
  | pending => exact .inl (Phase.setRelay_stage d.phase _)
  | ready => exact Download.relayClose_stage (d := d.setFile file) []
  | failed error => exact .ended
  | panicked => exact .ended

theorem Download.step_stage (h : d.step decrypt e = some (d', os)) :
    d.stage.Goes d'.offset d'.stage := by
  have hruns := Download.step_runs h
  generalize hnext : (d', os) = next at hruns
  have hd : d' = next.1 := congrArg Prod.fst hnext
  rw [hd]
  cases hruns with
  | @started ok hphase =>
    rw [Download.stage, hphase]
    cases ok with
    | true => exact .inr .connects
    | false => exact .ended
  | offered => exact .inl (Phase.setPeer_stage d.phase _)
  | opened => exact .kept
  | @peerError _ error => exact Download.peerError_stage error
  | @peerHandled _ h => exact Download.peerHandled_stage h
  | finished => exact .ended
  | relayRequest => exact Download.relayRequest_stage
  | relayResponse => exact .inl (Phase.setRelay_stage d.phase _)
  | relayChunk => exact Download.relayChunk_stage _ _ _
  | relayFlush => exact Download.relayFlush_stage _
  | relayClose => exact Download.relayClose_stage _
  | relayRetry => exact .inl (Phase.setRelay_stage d.phase _)
  | relayFailed => exact .ended

end Stages

section Received

theorem Sound.receivedLen (hs : Sound decrypt fileSize tr d) :
    d.receivedLen = (received tr).length := by
  unfold Download.receivedLen
  cases hstate : d.state.decryptedFile.state with
  | unwritten data => exact congrArg List.length (hs.stores.unwritten hstate)
  | _ => exact (hs.stores.started (by simp [DecryptedFile.started, hstate])).symm

theorem Sound.offset (hs : Sound decrypt fileSize tr d) {n : ℕ} (hn : d.offset = some n) :
    n = d.receivedLen :=
  (hs.stores.offset hn).trans hs.receivedLen.symm

theorem Sound.receivedLen_le (hs : Sound decrypt fileSize tr d)
    (hstep : d.step decrypt e = some (d', os)) : d.receivedLen ≤ d'.receivedLen := by
  have hs' := hs.change (Download.step_change hstep)
  rw [hs.receivedLen, hs'.receivedLen, received_snoc, List.length_append]
  exact Nat.le_add_right _ _

end Received

/-- What a run within the file keeps: it has taken no more than the file, and what it had taken
before the transfer under way is no more than that. -/
structure Within (decrypt : List UInt8 → Option (List UInt8)) (fileSize : ℕ)
    (tr : Trace Event Output) (d : Download) : Prop where
  sound : Sound decrypt fileSize tr d
  le : d.receivedLen ≤ ciphertextLen fileSize
  before : ∀ before, d.stage = .transferring (some before) → before ≤ d.receivedLen

section Within

theorem spawn_within : Within decrypt fileSize [] (.spawn transport fileSize) where
  sound := spawn_sound
  le := Nat.zero_le _
  before before h := by cases transport <;> cases h

theorem Within.step (hw : Within decrypt fileSize tr d) (hfits : d.Fits e)
    (hstep : d.step decrypt e = some (d', os)) :
    Within decrypt fileSize (tr ++ [(e, os)]) d' := by
  have hchange := Download.step_change hstep
  have hs' := hw.sound.change hchange
  refine ⟨hs', ?_, fun before hstage => ?_⟩
  · rw [hs'.receivedLen]
    refine (hw.sound.received_le_iff hchange).2 ⟨?_, hfits⟩
    rw [← hw.sound.receivedLen]
    exact hw.le
  · have hle := hw.sound.receivedLen_le hstep
    rcases Download.step_stage hstep with hkept | hnext
    · exact Nat.le_trans (hw.before before (hkept.symm.trans hstage)) hle
    · rw [hstage] at hnext
      generalize d.stage = stage at hnext
      cases hnext with
      | interrupts hoff => exact Nat.le_of_eq (hs'.offset hoff)

theorem path_within
    (h : (downloadAsync decrypt transport fileSize).Path Download.Fits
      (.spawn transport fileSize) tr d) :
    Within decrypt fileSize tr d :=
  EventMachine.Path.history (P := Within decrypt fileSize) h spawn_within
    fun _ _ _ _ _ _ hw hfits hstep => hw.step hfits hstep

theorem Within.rank (hw : Within decrypt fileSize tr d) (hfits : d.Fits e)
    (hstep : d.step decrypt e = some (d', os)) :
    d'.rank + (if d'.stage = d.stage then 0 else 1) ≤ d.rank := by
  have hw' := hw.step hfits hstep
  have hle := hw.sound.receivedLen_le hstep
  have htotal : d'.state.totalLen = d.state.totalLen :=
    hw'.sound.total.trans hw.sound.total.symm
  have hbefore := hw.before
  have hmax : d'.receivedLen ≤ d.state.totalLen := hw.sound.total ▸ hw'.le
  unfold Download.rank
  rw [htotal]
  rcases Download.step_stage hstep with hkept | hnext
  · rw [if_pos hkept, hkept]
    cases d.stage with
    | transferring before => cases before <;> simp
    | fallback => simp only [Nat.add_zero]; omega
    | _ => simp
  · generalize d.stage = stage at hnext hbefore ⊢
    generalize hstage' : d'.stage = stage' at hnext
    cases hnext with
    | interrupts hoff =>
      have hreceived := hw'.sound.offset hoff
      simp only [reduceCtorEq, if_false]
      omega
    | @again before after hoff hne =>
      have hreceived := hw'.sound.offset hoff
      have hsince := hbefore before rfl
      simp only [reduceCtorEq, if_false]
      omega
    | ends =>
      cases stage with
      | transferring before =>
        cases before with
        | none => simp
        | some before => simp
      | _ => simp
    | _ => simp only [reduceCtorEq, if_false]; omega

end Within

namespace Download

def takenBefore (d : Download) : ℕ :=
  match d.stage with
  | .transferring (some before) => before
  | _ => d.receivedLen

theorem takenBefore_transferring {before : ℕ} (h : d.stage = .transferring (some before)) :
    d.takenBefore = before := by
  simp only [takenBefore, h]

end Download

section Logs
variable {log : StageLog}

@[simp] theorem StageLog.passes_snoc (stage : Stage) (offset : Option ℕ) :
    passes (log ++ [(stage, offset)]) =
      log.passes ++ (if stage = .fallback then [offset] else []) := by
  by_cases h : stage = .fallback <;> simp [passes, h]

@[simp] theorem StageLog.interruptions_snoc (stage : Stage) (offset : Option ℕ) :
    interruptions (log ++ [(stage, offset)]) =
      log.interruptions + (match stage with
        | .transferring (some _) => 1
        | _ => 0) := by
  unfold interruptions
  rw [List.countP_append, List.countP_singleton]
  cases stage with
  | transferring before => cases before <;> rfl
  | _ => rfl

theorem Within.takenBefore_le (hw : Within decrypt fileSize tr d) :
    d.takenBefore ≤ d.receivedLen := by
  unfold Download.takenBefore
  split
  · next before hstage => exact hw.before before hstage
  · exact Nat.le_refl _

theorem Sound.takenBefore_next (hs : Sound decrypt fileSize (tr ++ [(e, os)]) d')
    (hnext : d.stage.Next d'.offset d'.stage) : d'.takenBefore = d'.receivedLen := by
  unfold Download.takenBefore
  split
  · next before hstage =>
    rw [hstage] at hnext
    generalize d.stage = stage at hnext
    cases hnext with
    | interrupts hoff => exact hs.offset hoff
  · rfl

theorem Within.offset_getD (hw : Within decrypt fileSize tr d) :
    d.offset.getD (ciphertextLen fileSize) = d.receivedLen := by
  cases hoff : d.offset with
  | some n => exact hw.sound.offset hoff
  | none =>
    have hpoisoned := offset_poisoned.1 hoff
    rw [Option.getD_none, Download.receivedLen, hpoisoned, hw.sound.size]

structure Logged (fileSize : ℕ) (d : Download) (log : StageLog) : Prop where
  length : log.length + d.rank ≤ 2 * ciphertextLen fileSize + 6
  ascends : log.passes.Pairwise StageLog.Ascends
  reached : ∀ pass ∈ log.passes, pass.getD (ciphertextLen fileSize) ≤ d.takenBefore
  first : d.stage = .starting ∨ d.stage = .connecting ∨ d.stage = .transferring none →
    log.passes = []
  interruptions : log.interruptions + (if d.stage = .fallback then 1 else 0) ≤ log.passes.length

theorem spawn_logged : Logged fileSize (.spawn transport fileSize) [] where
  length := by cases transport <;> simp [Download.rank, Download.stage, Download.spawn, Phase.stage]
  ascends := .nil
  reached pass h := by cases h
  first _ := rfl
  interruptions := by cases transport <;> simp [Download.stage, Download.spawn, Phase.stage,
    StageLog.interruptions]

theorem Logged.kept (hl : Logged fileSize d log) (hw : Within decrypt fileSize tr d)
    (hfits : d.Fits e) (hstep : d.step decrypt e = some (d', os)) (hkept : d'.stage = d.stage) :
    Logged fileSize d' log where
  length := by
    have hrank := hw.rank hfits hstep
    have hlength := hl.length
    omega
  ascends := hl.ascends
  reached pass hpass := by
    refine Nat.le_trans (hl.reached pass hpass) ?_
    have hle := hw.sound.receivedLen_le hstep
    unfold Download.takenBefore
    rw [hkept]
    split
    · exact Nat.le_refl _
    · exact hle
  first h := hl.first (hkept ▸ h)
  interruptions := hkept ▸ hl.interruptions

theorem Logged.length_snoc (hl : Logged fileSize d log) (hw : Within decrypt fileSize tr d)
    (hfits : d.Fits e) (hstep : d.step decrypt e = some (d', os)) (hne : d'.stage ≠ d.stage)
    (entry : Stage × Option ℕ) :
    (log ++ [entry]).length + d'.rank ≤ 2 * ciphertextLen fileSize + 6 := by
  have hrank := hw.rank hfits hstep
  have hlength := hl.length
  rw [if_neg hne] at hrank
  rw [List.length_append, List.length_singleton]
  omega

theorem Logged.reached_next (hl : Logged fileSize d log) (hw : Within decrypt fileSize tr d)
    (hstep : d.step decrypt e = some (d', os)) (hne : d'.stage ≠ d.stage) {pass : Option ℕ}
    (hpass : pass ∈ log.passes) : pass.getD (ciphertextLen fileSize) ≤ d'.takenBefore := by
  have hs' := hw.sound.change (Download.step_change hstep)
  calc pass.getD (ciphertextLen fileSize) ≤ d.takenBefore := hl.reached pass hpass
    _ ≤ d.receivedLen := hw.takenBefore_le
    _ ≤ d'.receivedLen := hw.sound.receivedLen_le hstep
    _ = d'.takenBefore := (hs'.takenBefore_next ((Download.step_stage hstep).resolve_left hne)).symm

theorem Logged.elsewhere (hl : Logged fileSize d log) (hw : Within decrypt fileSize tr d)
    (hfits : d.Fits e) (hstep : d.step decrypt e = some (d', os)) (hne : d'.stage ≠ d.stage)
    (hother : d'.stage ≠ .fallback)
    (hfirst : d'.stage = .starting ∨ d'.stage = .connecting ∨ d'.stage = .transferring none →
      log.passes = [])
    (hfallback : (∃ before, d'.stage = .transferring (some before)) → d.stage = .fallback) :
    Logged fileSize d' (log ++ [(d'.stage, d'.offset)]) where
  length := hl.length_snoc hw hfits hstep hne _
  ascends := by simpa [hother] using hl.ascends
  reached pass hpass := by
    have hpass : pass ∈ log.passes := by simpa [hother] using hpass
    exact hl.reached_next hw hstep hne hpass
  first h := by simpa [hother] using hfirst h
  interruptions := by
    have hbefore := hl.interruptions
    simp only [StageLog.interruptions_snoc, StageLog.passes_snoc, if_neg hother, List.append_nil,
      Nat.add_zero]
    split
    · next before hstage =>
      rwa [if_pos (hfallback ⟨before, hstage⟩)] at hbefore
    · exact Nat.le_trans (Nat.le_add_right _ _) hbefore

theorem Logged.pass (hl : Logged fileSize d log) (hw : Within decrypt fileSize tr d)
    (hfits : d.Fits e) (hstep : d.step decrypt e = some (d', os)) (hne : d'.stage ≠ d.stage)
    (hpass : d'.stage = .fallback)
    (habove : ∀ pass ∈ log.passes, ∃ after, d'.offset = some after ∧
      pass.getD (ciphertextLen fileSize) < after) :
    Logged fileSize d' (log ++ [(d'.stage, d'.offset)]) where
  length := hl.length_snoc hw hfits hstep hne _
  ascends := by
    have hw' := hw.step hfits hstep
    simp only [StageLog.passes_snoc, if_pos hpass, List.pairwise_append, List.pairwise_singleton,
      List.mem_singleton, forall_eq, true_and]
    refine ⟨hl.ascends, fun pass hmem => ?_⟩
    obtain ⟨after, hoff, hlt⟩ := habove pass hmem
    cases pass with
    | some n => exact ⟨n, after, rfl, hoff, hlt⟩
    | none =>
      have hmax := hw'.le
      rw [← hw'.sound.offset hoff] at hmax
      exact absurd hlt (Nat.not_lt.2 hmax)
  reached pass hmem := by
    simp only [StageLog.passes_snoc, if_pos hpass, List.mem_append, List.mem_singleton] at hmem
    rcases hmem with hmem | rfl
    · exact hl.reached_next hw hstep hne hmem
    · have hw' := hw.step hfits hstep
      rw [hw'.sound.takenBefore_next ((Download.step_stage hstep).resolve_left hne)]
      exact Nat.le_of_eq hw'.offset_getD
  first h := by simp [hpass] at h
  interruptions := by
    have hbefore := hl.interruptions
    simp only [StageLog.interruptions_snoc, StageLog.passes_snoc, hpass, if_true,
      List.length_append, List.length_singleton, Nat.add_zero]
    omega

theorem Logged.step (hl : Logged fileSize d log) (hw : Within decrypt fileSize tr d)
    (hfits : d.Fits e) (hstep : d.step decrypt e = some (d', os)) :
    Logged fileSize d' (log.after decrypt d e) := by
  have hw' := hw.step hfits hstep
  have hafter : log.after decrypt d e =
      if d'.stage = d.stage then log else log ++ [(d'.stage, d'.offset)] := by
    simp only [StageLog.after, hstep]
  rw [hafter]
  by_cases hkept : d'.stage = d.stage
  · rw [if_pos hkept]
    exact hl.kept hw hfits hstep hkept
  rw [if_neg hkept]
  have hnext := (Download.step_stage hstep).resolve_left hkept
  generalize hstage : d.stage = stage at hnext
  generalize hstage' : d'.stage = stage' at hnext
  rw [← hstage']
  cases hnext with
  | connects =>
    exact hl.elsewhere hw hfits hstep hkept (by simp [hstage']) (fun _ => hl.first (.inl hstage))
      (by simp [hstage'])
  | connected =>
    exact hl.elsewhere hw hfits hstep hkept (by simp [hstage'])
      (fun _ => hl.first (.inr (.inl hstage))) (by simp [hstage'])
  | notConnected =>
    refine hl.pass hw hfits hstep hkept hstage' ?_
    rw [hl.first (.inr (.inl hstage))]
    nofun
  | fallsBack =>
    refine hl.pass hw hfits hstep hkept hstage' ?_
    rw [hl.first (.inr (.inr hstage))]
    nofun
  | interrupts =>
    exact hl.elsewhere hw hfits hstep hkept (by simp [hstage']) (by simp [hstage'])
      (fun _ => hstage)
  | @again before after hoff hne =>
    refine hl.pass hw hfits hstep hkept hstage' fun pass hpass => ⟨after, hoff, ?_⟩
    have hle := hw.sound.receivedLen_le hstep
    have hreached := hl.reached pass hpass
    have hbefore := hw.before before hstage
    rw [Download.takenBefore_transferring hstage] at hreached
    rw [← hw'.sound.offset hoff] at hle
    omega
  | relayContinues =>
    exact hl.elsewhere hw hfits hstep hkept (by simp [hstage']) (by simp [hstage'])
      (by simp [hstage'])
  | noProgress =>
    exact hl.elsewhere hw hfits hstep hkept (by simp [hstage']) (by simp [hstage'])
      (by simp [hstage'])
  | ends =>
    exact hl.elsewhere hw hfits hstep hkept (by simp [hstage']) (by simp [hstage'])
      (by simp [hstage'])

end Logs

section Runs
variable {log : StageLog}

theorem staged_forget
    (h : (staged decrypt transport fileSize).Path (fun p e => p.1.Fits e)
      (.spawn transport fileSize, []) tr (d, log)) :
    (downloadAsync decrypt transport fileSize).Path Download.Fits (.spawn transport fileSize) tr d ∧
      Logged fileSize d log := by
  refine EventMachine.Path.history (P := fun tr p =>
    (downloadAsync decrypt transport fileSize).Path Download.Fits (.spawn transport fileSize) tr
      p.1 ∧ Logged fileSize p.1 p.2) h ⟨.refl, spawn_logged⟩ ?_
  rintro tr p e q os - ⟨hpath, hl⟩ hfits hstep
  obtain ⟨hd, hlog⟩ := EventMachine.withGhost_step.mp hstep
  exact ⟨.snoc hpath hfits hd, hlog ▸ hl.step (path_within hpath) hfits hd⟩

theorem StageLog.passes_length {fileSize : ℕ} {log : StageLog}
    (hascends : log.passes.Pairwise StageLog.Ascends)
    (hle : ∀ pass ∈ log.passes, pass.getD fileSize ≤ fileSize) :
    log.passes.length ≤ fileSize + 1 := by
  have hnodup : (log.passes.map fun pass => pass.getD fileSize).Nodup := by
    refine List.pairwise_map.2 (hascends.imp ?_)
    rintro pass later ⟨n, m, rfl, rfl, hlt⟩
    exact Nat.ne_of_lt hlt
  have hsubset : (log.passes.map fun pass => pass.getD fileSize) ⊆ List.range (fileSize + 1) := by
    intro n hn
    obtain ⟨pass, hpass, rfl⟩ := List.mem_map.1 hn
    exact List.mem_range.2 (Nat.lt_succ_of_le (hle pass hpass))
  simpa using (List.subperm_of_subset hnodup hsubset).length_le

theorem Within.offset_mono {tr' : Trace Event Output} (hw : Within decrypt fileSize tr d)
    (hw' : Within decrypt fileSize (tr ++ tr') d') {n m : ℕ} (hn : d.offset = some n)
    (hm : d'.offset = some m) : n ≤ m := by
  rw [hw.sound.offset hn, hw'.sound.offset hm, hw.sound.receivedLen, hw'.sound.receivedLen,
    received, received, List.flatMap_append, List.length_append]
  exact Nat.le_add_right _ _

end Runs

section Endless
variable {ds : ℕ → Download}

theorem Endless.path (h : Endless decrypt transport fileSize ds) (i : ℕ) :
    ∃ tr, (downloadAsync decrypt transport fileSize).Path Download.Fits
      (.spawn transport fileSize) tr (ds i) := by
  induction i with
  | zero => exact ⟨[], h.init ▸ .refl⟩
  | succ i ih =>
    obtain ⟨tr, hpath⟩ := ih
    obtain ⟨e, os, hfits, hstep⟩ := h.step i
    exact ⟨_, .snoc hpath hfits hstep⟩

theorem Endless.rank_succ (h : Endless decrypt transport fileSize ds) (i : ℕ) :
    (ds (i + 1)).rank + (if (ds (i + 1)).stage = (ds i).stage then 0 else 1) ≤ (ds i).rank := by
  obtain ⟨tr, hpath⟩ := h.path i
  obtain ⟨e, os, hfits, hstep⟩ := h.step i
  exact (path_within hpath).rank hfits hstep

theorem Endless.rank_le (h : Endless decrypt transport fileSize ds) {i j : ℕ} (hij : i ≤ j) :
    (ds j).rank < (ds i).rank ∨ (ds j).rank = (ds i).rank ∧ (ds j).stage = (ds i).stage := by
  induction j, hij using Nat.le_induction with
  | base => exact .inr ⟨rfl, rfl⟩
  | succ j _ ih =>
    have hsucc := h.rank_succ j
    split at hsucc
    · next hkept =>
      rcases ih with hlt | ⟨heq, hstage⟩
      · exact .inl (by omega)
      · rw [← hstage, ← hkept]
        rcases Nat.lt_or_ge (ds (j + 1)).rank (ds i).rank with hlt | hge
        · exact .inl hlt
        · exact .inr ⟨by omega, rfl⟩
    · exact .inl (by omega)

theorem Endless.stays (h : Endless decrypt transport fileSize ds) :
    ∃ i, ∀ j, i ≤ j → (ds j).stage = (ds i).stage := by
  obtain ⟨i, hmin⟩ : ∃ i, ∀ j, (ds i).rank ≤ (ds j).rank := by
    obtain ⟨_, ⟨i, rfl⟩, hmin⟩ :=
      Nat.lt_wfRel.wf.has_min (Set.range fun i => (ds i).rank) ⟨_, 0, rfl⟩
    exact ⟨i, fun j => Nat.not_lt.1 (hmin _ ⟨j, rfl⟩)⟩
  refine ⟨i, fun j hij => ?_⟩
  rcases h.rank_le hij with hlt | ⟨-, hstage⟩
  · exact absurd hlt (Nat.not_lt.2 (hmin j))
  · exact hstage

end Endless

/-- In every run that keeps the buffer within the file, the offset never falls, the passes of
the loop begin at ascending offsets, and so few of them interrupt the relayed transfer; no
run in which every stage comes to an end is endless. -/
theorem fallback_loop_ends (decrypt : List UInt8 → Option (List UInt8)) (transport : Transport)
    (fileSize : ℕ) :
    (∀ tr d log, (staged decrypt transport fileSize).Path (fun p e => p.1.Fits e)
        (.spawn transport fileSize, []) tr (d, log) →
      (∀ pre suf d₀ log₀, tr = pre ++ suf →
        (staged decrypt transport fileSize).Path (fun p e => p.1.Fits e)
          (.spawn transport fileSize, []) pre (d₀, log₀) →
        ∀ n m, d₀.offset = some n → d.offset = some m → n ≤ m) ∧
      log.passes.Pairwise StageLog.Ascends ∧
      log.passes.length ≤ ciphertextLen fileSize + 1 ∧
      log.interruptions ≤ ciphertextLen fileSize + 1 ∧
      log.length ≤ 2 * ciphertextLen fileSize + 6) ∧
    ∀ ds, (∀ i, ∃ j, i ≤ j ∧ (ds j).stage ≠ (ds i).stage) →
      ¬ Endless decrypt transport fileSize ds := by
  refine ⟨fun tr d log h => ?_, fun ds hterminates hendless => ?_⟩
  · obtain ⟨hpath, hl⟩ := staged_forget h
    have hw := path_within hpath
    have hpasses : log.passes.length ≤ ciphertextLen fileSize + 1 :=
      StageLog.passes_length hl.ascends fun pass hpass =>
        Nat.le_trans (hl.reached pass hpass) (Nat.le_trans hw.takenBefore_le hw.le)
    refine ⟨?_, hl.ascends, hpasses, ?_, Nat.le_trans (Nat.le_add_right _ _) hl.length⟩
    · rintro pre suf d₀ log₀ rfl h₀ n m hn hm
      exact (path_within (staged_forget h₀).1).offset_mono hw hn hm
    · exact Nat.le_trans (Nat.le_trans (Nat.le_add_right _ _) hl.interruptions) hpasses
  · obtain ⟨i, hstays⟩ := hendless.stays
    obtain ⟨j, hij, hne⟩ := hterminates i
    exact hne (hstays j hij)

theorem staged_within_iff {log : StageLog}
    (h : (staged decrypt transport fileSize).Path (fun _ _ => True)
      (.spawn transport fileSize, []) tr (d, log)) :
    (received tr).length ≤ ciphertextLen fileSize ↔
      (staged decrypt transport fileSize).Path (fun p e => p.1.Fits e)
        (.spawn transport fileSize, []) tr (d, log) := by
  refine EventMachine.Path.guarded_iff_history
    (P := fun tr _ => (received tr).length ≤ ciphertextLen fileSize) h (Nat.zero_le _) ?_
  intro tr p e q os hpath hstep
  have hs : Sound decrypt fileSize tr p.1 := run_sound hpath.forget
  exact hs.received_le_iff (Download.step_change (EventMachine.withGhost_step.mp hstep).1)

theorem fallback_loop_ends_twice :
    ∃ tr d log, (staged unframe .both 0).Path (fun p e => p.1.Fits e) (.spawn .both 0, []) tr
        (d, log) ∧
      log.passes = [some 0, some 10] ∧ log.passes.Pairwise StageLog.Ascends := by
  obtain ⟨tr, d, log, hexec, hlen, hpasses⟩ : ∃ tr d log,
      (staged unframe .both 0).exec (.spawn .both 0, [])
        [.started true, .offered true, .peerFailed, .relayRequest, .offered true,
          .peerOpened none [], .peerMessage (some .hello) none [],
          .peerMessage (some (.dataResponse 0 (List.replicate 10 0))) none [], .peerFailed] =
        some (tr, d, log) ∧ (received tr).length ≤ ciphertextLen 0 ∧
        log.passes = [some 0, some 10] := ⟨_, _, _, rfl, by decide, rfl⟩
  have hpath := (staged_within_iff (EventMachine.exec_path _ hexec)).1 hlen
  have hends := (fallback_loop_ends unframe .both 0).1 tr d log hpath
  exact ⟨tr, d, log, hpath, hpasses, hends.2.1⟩

end Glopfile.Client

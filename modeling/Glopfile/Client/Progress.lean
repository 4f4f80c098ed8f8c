import Glopfile.Client.UploadState

/-!
# Progress streams

A `Progress` is a future with the receiver of a channel that the future, and whoever it gave
a sender, report to. `poll_next` polls the future first, and takes a report from the channel
only when the future is pending. An event is a send, the drop of the last sender, or a call of
`poll_next`: the reports the future sends in it, whether it drops the last sender, and what it
returns.

The stream hands on what was sent, in order. It ends as soon as the future has returned, so
reports are lost exactly when the channel is not empty by then (`ends_complete_iff`), as the
last one of an upload is (`transferFinished_lost`).
-/

namespace Glopfile.Client

open EventMachine (Trace)

structure ProgressState (α : Type*) where
  current : α
  total : α
  deriving DecidableEq, Repr

inductive FuturePoll (ε : Type*)
  | pending
  | ready (result : Except ε Unit)

inductive StreamPoll (α ε : Type*)
  | pending
  | ready (item : Option (Except ε (ProgressState α)))

inductive ProgressEvent (α ε : Type*)
  | send (state : ProgressState α)
  | dropSender
  | pollNext (sent : List (ProgressState α)) (dropped : Bool) (polled : FuturePoll ε)

structure Progress (α : Type*) where
  progressRx : List (ProgressState α)
  hasSender : Bool
  completed : Bool

namespace Progress
variable {α ε : Type*}

def receive (p : Progress α) (sent : List (ProgressState α)) (dropped : Bool) : Progress α :=
  { p with progressRx := p.progressRx ++ sent, hasSender := p.hasSender && !dropped }

/-- `UnboundedReceiver::poll_next`. -/
def pollRx (p : Progress α) : Progress α × StreamPoll α ε :=
  match p.progressRx with
  | state :: rest => ({ p with progressRx := rest }, .ready (some (.ok state)))
  | [] => (p, if p.hasSender then .pending else .ready none)

def pollNext (p : Progress α) : FuturePoll ε → Progress α × StreamPoll α ε
  | .ready (.ok ()) => ({ p with completed := true }, .ready none)
  | .ready (.error error) => ({ p with completed := true }, .ready (some (.error error)))
  | .pending => p.pollRx

/-- Nothing is sent without a sender, and a future that has returned is not polled again. -/
def step (p : Progress α) : ProgressEvent α ε → Option (Progress α × List (StreamPoll α ε))
  | .send state => if p.hasSender then some (p.receive [state] false, []) else none
  | .dropSender => if p.hasSender then some (p.receive [] true, []) else none
  | .pollNext sent dropped polled =>
    if p.completed ∨ ¬ p.hasSender ∧ sent ≠ [] then none
    else
      let (p, poll) := (p.receive sent dropped).pollNext polled
      some (p, [poll])

def start : Progress α := ⟨[], true, false⟩

def newWith : EventMachine (Progress α) (ProgressEvent α ε) (StreamPoll α ε) where
  init := start
  step := step

end Progress

def UploaderOutput.progressState : UploaderOutput → Option (ProgressState ℕ)
  | .progress current total => some ⟨current, total⟩
  | .sent _ => none

def UploadState.reports (s : UploadState) (message : DownloaderMessage) : List (ProgressState ℕ) :=
  (s.dataChannelMessage message).2.filterMap UploaderOutput.progressState

section Reports
variable {α ε : Type*}

def ProgressEvent.sent : ProgressEvent α ε → List (ProgressState α)
  | .send state => [state]
  | .dropSender => []
  | .pollNext sent _ _ => sent

def StreamPoll.state : StreamPoll α ε → Option (ProgressState α)
  | .ready (some (.ok state)) => some state
  | _ => none

namespace Progress

abbrev History (α ε : Type*) := Trace (ProgressEvent α ε) (StreamPoll α ε)

def sent (tr : History α ε) : List (ProgressState α) := tr.flatMap fun p => p.1.sent

def yielded (tr : History α ε) : List (ProgressState α) :=
  tr.flatMap fun p => p.2.filterMap StreamPoll.state

/-- Whenever the stream ends, it has yielded all that was sent, in order and once. -/
def EndsComplete (tr : History α ε) : Prop :=
  tr.Each fun pre e os => .ready none ∈ os → yielded pre = sent (pre ++ [(e, os)])

/-- The future does not return `Ok` with a report in the channel. -/
def KeepsUp (p : Progress α) : ProgressEvent α ε → Prop
  | .pollNext sent _ (.ready (.ok ())) => p.progressRx = [] ∧ sent = []
  | _ => True

variable {p p' : Progress α} {e : ProgressEvent α ε} {os : List (StreamPoll α ε)}
  {tr : History α ε}

@[simp] theorem sent_snoc : sent (tr ++ [(e, os)]) = sent tr ++ e.sent := by
  simp [sent]

@[simp] theorem yielded_snoc :
    yielded (tr ++ [(e, os)]) = yielded tr ++ os.filterMap StreamPoll.state := by
  simp [yielded]

theorem step_pollNext {sent : List (ProgressState α)} {dropped : Bool} {polled : FuturePoll ε}
    (h : p.step (.pollNext sent dropped polled) = some (p', os)) :
    p.completed = false ∧ ∃ poll, os = [poll] ∧
      (p.receive sent dropped).pollNext polled = (p', poll) := by
  simp only [step] at h
  split_ifs at h with hrefused
  obtain ⟨rfl, rfl⟩ := Prod.mk.inj (Option.some.inj h)
  rw [not_or] at hrefused
  exact ⟨Bool.eq_false_iff.2 hrefused.1, _, rfl, rfl⟩

theorem pollRx_state {poll : StreamPoll α ε} (h : p.pollRx = (p', poll)) :
    p.progressRx = [poll].filterMap StreamPoll.state ++ p'.progressRx := by
  unfold pollRx at h
  split at h
  · next state rest hqueue =>
    obtain ⟨rfl, rfl⟩ := Prod.mk.inj h
    exact hqueue
  · obtain ⟨rfl, rfl⟩ := Prod.mk.inj h
    cases p.hasSender <;> rfl

theorem pollRx_none (h : p.pollRx (ε := ε) = (p', .ready none)) : p.progressRx = [] := by
  unfold pollRx at h
  split at h
  · cases (Prod.mk.inj h).2
  · next hqueue => exact hqueue

def Accounted (tr : History α ε) (p : Progress α) : Prop :=
  p.completed = false → sent tr = yielded tr ++ p.progressRx

theorem Accounted.step (ha : Accounted tr p) (h : p.step e = some (p', os)) :
    Accounted (tr ++ [(e, os)]) p' := by
  intro hcompleted
  rw [sent_snoc, yielded_snoc]
  cases e with
  | send state =>
    simp only [Progress.step] at h
    split_ifs at h
    obtain ⟨rfl, rfl⟩ := Prod.mk.inj (Option.some.inj h)
    rw [ha hcompleted, List.filterMap_nil, List.append_nil, List.append_assoc]
    rfl
  | dropSender =>
    simp only [Progress.step] at h
    split_ifs at h
    obtain ⟨rfl, rfl⟩ := Prod.mk.inj (Option.some.inj h)
    rw [ha hcompleted, List.filterMap_nil, List.append_nil, List.append_assoc]
    rfl
  | pollNext sent dropped polled =>
    obtain ⟨hrunning, poll, rfl, hpoll⟩ := step_pollNext h
    have hbefore := ha hrunning
    cases polled with
    | ready result =>
      cases result <;> obtain ⟨rfl, rfl⟩ := Prod.mk.inj hpoll <;> cases hcompleted
    | pending =>
      rw [hbefore, List.append_assoc, List.append_assoc, ← pollRx_state hpoll]
      rfl

theorem run_accounted (h : newWith.Run tr p) : Accounted tr p :=
  EventMachine.Path.history (P := Accounted) h (fun _ => rfl)
    fun _ _ _ _ _ _ ha _ hstep => ha.step hstep

theorem Accounted.ends_iff (ha : Accounted tr p) (h : p.step e = some (p', os)) :
    (.ready none ∈ os → yielded tr = sent (tr ++ [(e, os)])) ↔ p.KeepsUp e := by
  rw [sent_snoc]
  cases e with
  | send state =>
    simp only [Progress.step] at h
    split_ifs at h
    obtain ⟨rfl, rfl⟩ := Prod.mk.inj (Option.some.inj h)
    simp [KeepsUp]
  | dropSender =>
    simp only [Progress.step] at h
    split_ifs at h
    obtain ⟨rfl, rfl⟩ := Prod.mk.inj (Option.some.inj h)
    simp [KeepsUp]
  | pollNext sent dropped polled =>
    obtain ⟨hrunning, poll, rfl, hpoll⟩ := step_pollNext h
    have hbefore := ha hrunning
    cases polled with
    | ready result =>
      cases result with
      | error error =>
        obtain ⟨rfl, rfl⟩ := Prod.mk.inj hpoll
        simp [KeepsUp]
      | ok value =>
        obtain ⟨rfl, rfl⟩ := Prod.mk.inj hpoll
        have hall : yielded tr = Progress.sent tr ++ sent ↔ p.progressRx = [] ∧ sent = [] := by
          rw [hbefore, List.append_assoc, List.self_eq_append_right, List.append_eq_nil_iff]
        simpa [KeepsUp, ProgressEvent.sent] using hall
    | pending =>
      refine ⟨fun _ => trivial, fun _ hends => ?_⟩
      obtain rfl := List.mem_singleton.1 hends
      obtain ⟨hrx, hsent⟩ := List.append_eq_nil_iff.1 (pollRx_none hpoll)
      rw [hbefore, hrx, List.append_nil, ProgressEvent.sent, hsent, List.append_nil]

/-- Over every order of sends and polls: the stream ends complete exactly in the runs whose
future keeps up. -/
theorem ends_complete_iff (h : newWith.Run tr p) :
    EndsComplete tr ↔ newWith.Path KeepsUp start tr p := by
  refine EventMachine.Path.guarded_iff_history (P := fun tr _ => EndsComplete tr) h
    EventMachine.Trace.each_nil ?_
  intro tr p e p' os hpath hstep
  rw [EndsComplete, EventMachine.Trace.each_snoc]
  exact and_congr_right fun _ => (run_accounted hpath).ends_iff hstep

theorem ends_complete_running :
    ∃ (tr : History ℕ ℕ) (p : Progress ℕ), p.completed = true ∧ yielded tr = [⟨1, 2⟩] ∧
      newWith.Path KeepsUp start tr p := by
  obtain ⟨tr, p, hexec, hcompleted, hyielded, hends⟩ : ∃ (tr : History ℕ ℕ) (p : Progress ℕ),
      newWith.exec start
        [.pollNext [⟨1, 2⟩] false .pending, .pollNext [] true (.ready (.ok ()))] = some (tr, p) ∧
        p.completed = true ∧ yielded tr = [⟨1, 2⟩] ∧ EndsComplete tr := by
    refine ⟨_, _, rfl, rfl, rfl, ?_⟩
    refine EventMachine.Trace.each_cons.2 ⟨by simp, EventMachine.Trace.each_cons.2
      ⟨fun _ => rfl, EventMachine.Trace.each_nil⟩⟩
  exact ⟨tr, p, hcompleted, hyielded,
    (ends_complete_iff (EventMachine.exec_run _ hexec)).mp hends⟩

/-- An uploader reports the end of the transfer and returns; a p2p upload completes with it. -/
theorem transferFinished_lost (s : UploadState) {tr : History ℕ ε} {p p' : Progress ℕ}
    {dropped : Bool} {os : List (StreamPoll ℕ ε)} (h : newWith.Run tr p)
    (hstep : p.step (.pollNext (s.reports .transferFinished) dropped (.ready (.ok ()))) =
      some (p', os)) :
    ¬ EndsComplete
      (tr ++ [(.pollNext (s.reports .transferFinished) dropped (.ready (.ok ())), os)]) := by
  intro hends
  have hlast := (EventMachine.Trace.each_snoc.1 hends).2
  have hkeepsUp := ((run_accounted h).ends_iff hstep).1 hlast
  exact List.cons_ne_nil _ _ hkeepsUp.2

/-- A p2p upload of 29 bytes whose last report is lost. -/
theorem last_report_is_lost :
    ∃ (tr : History ℕ ℕ) (p : Progress ℕ), newWith.Run tr p ∧ p.completed = true ∧
      sent tr = [⟨29, 29⟩] ∧ yielded tr = [] ∧ ¬ EndsComplete tr := by
  obtain ⟨tr, p, hexec, hrest⟩ : ∃ (tr : History ℕ ℕ) (p : Progress ℕ),
      newWith.exec start [.pollNext (UploadState.reports ⟨⟨List.replicate 29 0⟩⟩ .transferFinished)
        true (.ready (.ok ()))] = some (tr, p) ∧ p.completed = true ∧ sent tr = [⟨29, 29⟩] ∧
        yielded tr = [] ∧ ¬ EndsComplete tr :=
    ⟨_, _, rfl, rfl, rfl, rfl, transferFinished_lost ⟨⟨List.replicate 29 0⟩⟩ .refl rfl⟩
  exact ⟨tr, p, EventMachine.exec_run _ hexec, hrest⟩

end Progress

end Reports

end Glopfile.Client

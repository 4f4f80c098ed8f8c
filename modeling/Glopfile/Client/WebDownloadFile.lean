import Glopfile.Simulation

/-!
# Writing a file in the browser

`poll_write` takes the whole buffer and leaves a future behind, which calls `write` in JavaScript
when it is first polled; the next `poll_write` or `poll_flush` polls it on. An event is a call, with
what the future would meet in JavaScript if this call polls it. A future that has completed panics
when it is polled again.
-/

namespace Glopfile.Client.WebDownloadFile

open EventMachine (Trace)

inductive Promise
  | pending
  | resolved
  | rejected (message : String)
  deriving DecidableEq, Repr

structure PendingWrite where
  data : List UInt8
  started : Bool
  completed : Bool
  deriving DecidableEq, Repr

structure DownloadFile where
  pendingWrite : Option PendingWrite
  deriving DecidableEq, Repr

inductive Call
  | write (buf : List UInt8)
  | flush
  | close
  deriving DecidableEq, Repr

/-- `ready` is `Ok`, of `buf.len()` if the call is a write. -/
inductive Poll
  | pending
  | ready
  | failed (message : String)
  | panicked
  deriving DecidableEq, Repr

structure Event where
  call : Call
  promise : Promise
  deriving DecidableEq, Repr

/-- `called` is the call of `write` in JavaScript, `resolved` that its promise is fulfilled. -/
inductive Output
  | called (data : List UInt8)
  | resolved (data : List UInt8)
  | returned (call : Call) (poll : Poll)
  deriving DecidableEq, Repr

def writeError (message : String) : String := "download file write error: " ++ message

namespace DownloadFile

def new : DownloadFile := ⟨none⟩

/-- The future stays where it is, whatever its poll returns. -/
def pollPendingWrite (f : DownloadFile) (promise : Promise) : DownloadFile × List Output × Poll :=
  match f.pendingWrite with
  | none => (f, [], .ready)
  | some pendingWrite =>
    if pendingWrite.completed then (f, [], .panicked)
    else
      let called := if pendingWrite.started then [] else [.called pendingWrite.data]
      let started := { pendingWrite with started := true }
      match promise with
      | .pending => (⟨some started⟩, called, .pending)
      | .resolved =>
        (⟨some { started with completed := true }⟩, called ++ [.resolved started.data], .ready)
      | .rejected message =>
        (⟨some { started with completed := true }⟩, called, .failed (writeError message))

def pollWrite (f : DownloadFile) (buf : List UInt8) (promise : Promise) :
    DownloadFile × List Output × Poll :=
  match f.pollPendingWrite promise with
  | (_, os, .ready) => (⟨some ⟨buf, false, false⟩⟩, os, .ready)
  | (f, os, poll) => (f, os, poll)

def pollFlush (f : DownloadFile) (promise : Promise) : DownloadFile × List Output × Poll :=
  match f.pollPendingWrite promise with
  | (_, os, .ready) => (⟨none⟩, os, .ready)
  | (f, os, poll) => (f, os, poll)

def pollClose (f : DownloadFile) (promise : Promise) : DownloadFile × List Output × Poll :=
  f.pollFlush promise

def poll (f : DownloadFile) (call : Call) (promise : Promise) :
    DownloadFile × List Output × Poll :=
  match call with
  | .write buf => f.pollWrite buf promise
  | .flush => f.pollFlush promise
  | .close => f.pollClose promise

end DownloadFile

def webDownloadFile : EventMachine DownloadFile Event Output where
  init := .new
  step f e :=
    let (f', os, poll) := f.poll e.call e.promise
    some (f', os ++ [.returned e.call poll])

def Output.calledData : Output → Option (List UInt8)
  | .called data => some data
  | _ => none

def Output.resolvedData : Output → Option (List UInt8)
  | .resolved data => some data
  | _ => none

def Output.takenData : Output → Option (List UInt8)
  | .returned (.write buf) .ready => some buf
  | _ => none

def called (os : List Output) : List (List UInt8) := os.filterMap Output.calledData

def resolved (os : List Output) : List (List UInt8) := os.filterMap Output.resolvedData

def taken (os : List Output) : List (List UInt8) := os.filterMap Output.takenData

variable {f f' : DownloadFile} {e : Event} {before os os' : List Output} {promise : Promise}
  {poll : Poll} {call : Call} {tr : Trace Event Output}

@[simp] theorem called_append : called (os ++ os') = called os ++ called os' :=
  List.filterMap_append

@[simp] theorem resolved_append : resolved (os ++ os') = resolved os ++ resolved os' :=
  List.filterMap_append

@[simp] theorem taken_append : taken (os ++ os') = taken os ++ taken os' :=
  List.filterMap_append

namespace DownloadFile

def waiting (f : DownloadFile) : List (List UInt8) :=
  match f.pendingWrite with
  | some ⟨data, false, _⟩ => [data]
  | _ => []

def underWay (f : DownloadFile) : List (List UInt8) :=
  match f.pendingWrite with
  | some ⟨data, true, _⟩ => [data]
  | _ => []

end DownloadFile

def Fails (os : List Output) : Prop := ∃ call message, .returned call (.failed message) ∈ os

def DownloadFile.Failed (f : DownloadFile) : Prop :=
  ∃ pendingWrite, f.pendingWrite = some pendingWrite ∧ pendingWrite.completed = true

structure Writes (os : List Output) (f : DownloadFile) : Prop where
  waiting : called os ++ f.waiting = taken os
  underWay : resolved os ++ f.underWay = called os
  failed : f.Failed ↔ Fails os

theorem new_writes : Writes [] .new where
  waiting := rfl
  underWay := rfl
  failed := by simp [DownloadFile.Failed, DownloadFile.new, Fails]

structure PollsOn (before os : List Output) (f f' : DownloadFile) (poll : Poll) : Prop where
  silent : ∀ call poll, .returned call poll ∉ os
  sequential : ∀ data, .called data ∈ os → resolved before = called before
  ready : poll = .ready → called (before ++ os) = taken before ∧
    resolved (before ++ os) = taken before
  stays : poll ≠ .ready → called (before ++ os) ++ f'.waiting = taken before ∧
    resolved (before ++ os) ++ f'.underWay = called (before ++ os)
  panicked : poll = .panicked ↔ f.Failed
  failed : poll ≠ .ready → (f'.Failed ↔ f.Failed ∨ ∃ message, poll = .failed message)

theorem Writes.pollsOn (h : Writes before f)
    (hpoll : f.pollPendingWrite promise = (f', os, poll)) : PollsOn before os f f' poll := by
  obtain ⟨hwaiting, hunderWay, -⟩ := h
  obtain ⟨_ | ⟨data, started, completed⟩⟩ := f
  · obtain ⟨rfl, rfl, rfl⟩ : ⟨none⟩ = f' ∧ [] = os ∧ .ready = poll := by
      simpa [DownloadFile.pollPendingWrite] using hpoll
    simp only [DownloadFile.waiting, DownloadFile.underWay, List.append_nil] at hwaiting hunderWay
    constructor <;> simp [DownloadFile.Failed, hwaiting, hunderWay]
  · cases completed with
    | true =>
      obtain ⟨rfl, rfl, rfl⟩ : ⟨some ⟨data, started, true⟩⟩ = f' ∧ [] = os ∧ .panicked = poll := by
        simpa [DownloadFile.pollPendingWrite] using hpoll
      constructor <;> simp [DownloadFile.Failed, hwaiting, hunderWay]
    | false =>
      have hstarted : called before ++ (if started then [] else [data]) = taken before := by
        cases started <;> exact hwaiting
      have hresolved : resolved before ++ (if started then [data] else []) = called before := by
        cases started <;> exact hunderWay
      cases promise with
      | pending =>
        obtain ⟨rfl, rfl, rfl⟩ : ⟨some ⟨data, true, false⟩⟩ = f' ∧
            (if started then [] else [Output.called data]) = os ∧ .pending = poll := by
          simpa [DownloadFile.pollPendingWrite] using hpoll
        cases started <;> constructor <;>
          simp_all [DownloadFile.Failed, called, resolved, List.filterMap_cons, Output.calledData,
            Output.resolvedData, DownloadFile.waiting, DownloadFile.underWay]
      | resolved =>
        obtain ⟨rfl, rfl, rfl⟩ : ⟨some ⟨data, true, true⟩⟩ = f' ∧
            (if started then [] else [Output.called data]) ++ [.resolved data] = os ∧
              .ready = poll := by
          simpa [DownloadFile.pollPendingWrite] using hpoll
        cases started <;> constructor <;>
          simp_all [DownloadFile.Failed, called, resolved, List.filterMap_cons, Output.calledData,
            Output.resolvedData, DownloadFile.waiting, DownloadFile.underWay]
      | rejected message =>
        obtain ⟨rfl, rfl, rfl⟩ : ⟨some ⟨data, true, true⟩⟩ = f' ∧
            (if started then [] else [Output.called data]) = os ∧
              .failed (writeError message) = poll := by
          simpa [DownloadFile.pollPendingWrite] using hpoll
        cases started <;> constructor <;>
          simp_all [DownloadFile.Failed, called, resolved, List.filterMap_cons, Output.calledData,
            Output.resolvedData, DownloadFile.waiting, DownloadFile.underWay]

theorem PollsOn.taken_eq (h : PollsOn before os f f' poll) : taken os = [] := by
  refine List.filterMap_eq_nil_iff.mpr fun o ho => ?_
  match o with
  | .called _ | .resolved _ => rfl
  | .returned call poll => exact absurd ho (h.silent call poll)

def Call.file : Call → DownloadFile
  | .write buf => ⟨some ⟨buf, false, false⟩⟩
  | .flush | .close => ⟨none⟩

def Poll.leaves (poll : Poll) (call : Call) (f : DownloadFile) : DownloadFile :=
  if poll = .ready then call.file else f

theorem flush_eq {os : List Output} (hpoll : f.pollPendingWrite promise = (f', os, poll)) :
    f.pollFlush promise = (poll.leaves .flush f', os, poll) := by
  unfold DownloadFile.pollFlush
  rw [hpoll]
  cases poll <;> rfl

theorem poll_eq {os : List Output} (hpoll : f.pollPendingWrite promise = (f', os, poll)) :
    f.poll call promise = (poll.leaves call f', os, poll) := by
  cases call with
  | write buf =>
    unfold DownloadFile.poll DownloadFile.pollWrite
    dsimp only
    rw [hpoll]
    cases poll <;> rfl
  | flush => exact flush_eq hpoll
  | close => exact flush_eq hpoll

theorem step_pollsOn (h : Writes before f) (hstep : webDownloadFile.step f e = some (f', os)) :
    ∃ polled g poll, PollsOn before polled f g poll ∧ f' = poll.leaves e.call g ∧
      os = polled ++ [.returned e.call poll] := by
  obtain ⟨g, polled, poll, hpoll⟩ : ∃ g polled poll,
      f.pollPendingWrite e.promise = (g, polled, poll) := ⟨_, _, _, rfl⟩
  refine ⟨polled, g, poll, h.pollsOn hpoll, ?_⟩
  simp only [webDownloadFile, poll_eq hpoll, Option.some.injEq, Prod.mk.injEq] at hstep
  exact ⟨hstep.1.symm, hstep.2.symm⟩

theorem PollsOn.taken_append (h : PollsOn before os f f' poll) :
    taken (before ++ (os ++ [.returned call poll])) =
      taken before ++ taken [.returned call poll] := by
  rw [WebDownloadFile.taken_append, WebDownloadFile.taken_append, h.taken_eq,
    List.nil_append]

theorem called_returned : called (os ++ [.returned call poll]) = called os := by
  rw [called_append]
  exact List.append_nil _

theorem resolved_returned : resolved (os ++ [.returned call poll]) = resolved os := by
  rw [resolved_append]
  exact List.append_nil _

theorem PollsOn.fails_append (h : PollsOn before os f f' poll) :
    Fails (before ++ (os ++ [.returned call poll])) ↔
      Fails before ∨ ∃ message, poll = .failed message := by
  constructor
  · rintro ⟨call', message, hmem⟩
    rcases List.mem_append.mp hmem with hbefore | hmem
    · exact .inl ⟨call', message, hbefore⟩
    rcases List.mem_append.mp hmem with hos | hlast
    · exact absurd hos (h.silent _ _)
    · obtain ⟨-, hpoll⟩ := Output.returned.inj (List.mem_singleton.mp hlast)
      exact .inr ⟨message, hpoll.symm⟩
  · rintro (⟨call', message, hmem⟩ | ⟨message, rfl⟩)
    · exact ⟨call', message, List.mem_append_left _ hmem⟩
    · exact ⟨call, message, by simp⟩

theorem Call.file_not_failed : ¬call.file.Failed := by
  rintro ⟨pendingWrite, hsome, hcompleted⟩
  cases call with
  | write buf =>
    obtain rfl := Option.some.inj hsome
    cases hcompleted
  | flush => cases hsome
  | close => cases hsome

theorem PollsOn.writes (h : PollsOn before os f f' poll) (hbefore : Writes before f) :
    Writes (before ++ (os ++ [.returned call poll])) (poll.leaves call f') := by
  by_cases hready : poll = .ready
  · subst hready
    obtain ⟨hcalled, hresolved⟩ := h.ready rfl
    have hnot : ¬Fails before := by
      rw [← hbefore.failed, ← h.panicked]
      exact nofun
    constructor
    · rw [h.taken_append, ← List.append_assoc, called_returned, hcalled]
      cases call <;> rfl
    · rw [← List.append_assoc, called_returned, resolved_returned, hcalled, hresolved]
      cases call <;> exact List.append_nil _
    · rw [h.fails_append]
      simp [hnot, Poll.leaves, Call.file_not_failed]
  · obtain ⟨hwaiting, hunderWay⟩ := h.stays hready
    rw [Poll.leaves, if_neg hready]
    constructor
    · have hnone : taken [.returned call poll] = [] := by
        cases call <;> cases poll <;> first | rfl | exact absurd rfl hready
      rw [h.taken_append, hnone, ← List.append_assoc, called_returned, hwaiting, List.append_nil]
    · rw [← List.append_assoc, called_returned, resolved_returned, hunderWay]
    · rw [h.fails_append, h.failed hready, hbefore.failed]

structure CallWrites (before os : List Output) : Prop where
  sequential : ∀ data, .called data ∈ os → resolved before = called before
  ready : ∀ call, .returned call .ready ∈ os → resolved (before ++ os) = taken before
  panicked : (∃ call, .returned call .panicked ∈ os) ↔ Fails before

theorem PollsOn.mem_returned {call' : Call} {poll' : Poll} (h : PollsOn before os f f' poll) :
    .returned call' poll' ∈ os ++ [.returned call poll] ↔ call' = call ∧ poll' = poll := by
  rw [List.mem_append, List.mem_singleton, Output.returned.injEq]
  exact or_iff_right (h.silent call' poll')

theorem PollsOn.callWrites (h : PollsOn before os f f' poll) (hbefore : Writes before f) :
    CallWrites before (os ++ [.returned call poll]) where
  sequential data hcalled := by
    rcases List.mem_append.mp hcalled with hos | hlast
    · exact h.sequential data hos
    · cases List.mem_singleton.mp hlast
  ready call' hready := by
    obtain ⟨-, hpoll⟩ := h.mem_returned.mp hready
    rw [← List.append_assoc, resolved_returned]
    exact (h.ready hpoll.symm).2
  panicked := by
    rw [← hbefore.failed, ← h.panicked]
    constructor
    · rintro ⟨call', hpanicked⟩
      exact (h.mem_returned.mp hpanicked).2.symm
    · rintro rfl
      exact ⟨call, h.mem_returned.mpr ⟨rfl, rfl⟩⟩

theorem run_writes (hrun : webDownloadFile.Run tr f) :
    Writes tr.outputs f ∧ tr.Each fun pre _ os => CallWrites pre.outputs os := by
  refine hrun.history (P := fun tr f => Writes tr.outputs f ∧
    tr.Each fun pre _ os => CallWrites pre.outputs os)
    ⟨new_writes, EventMachine.Trace.each_nil⟩ ?_
  rintro tr f e f' os - ⟨hwrites, heach⟩ - hstep
  obtain ⟨polled, g, poll, hpolls, rfl, rfl⟩ := step_pollsOn hwrites hstep
  rw [EventMachine.Trace.outputs_append, EventMachine.Trace.outputs_single,
    EventMachine.Trace.each_snoc]
  exact ⟨hpolls.writes hwrites, heach, hpolls.callWrites hwrites⟩

theorem waiting_or_underWay : f.waiting.length + f.underWay.length ≤ 1 := by
  obtain ⟨_ | ⟨data, started, completed⟩⟩ := f
  · exact Nat.zero_le _
  · cases started <;> exact Nat.le_refl _

/-- The buffers reach JavaScript in order, one at a time; at most one is not written. A call is
ready only once all buffers of the calls before it are written, and panics exactly if one of these
failed. -/
theorem buffers_are_written_in_turn (hrun : webDownloadFile.Run tr f) :
    resolved tr.outputs <+: called tr.outputs ∧ called tr.outputs <+: taken tr.outputs ∧
      (taken tr.outputs).length ≤ (resolved tr.outputs).length + 1 ∧
      tr.Each fun pre _ os => CallWrites pre.outputs os := by
  obtain ⟨⟨hwaiting, hunderWay, -⟩, heach⟩ := run_writes hrun
  refine ⟨⟨f.underWay, hunderWay⟩, ⟨f.waiting, hwaiting⟩, ?_, heach⟩
  have hle : f.waiting.length + f.underWay.length ≤ 1 := waiting_or_underWay
  rw [← hwaiting, ← hunderWay, List.length_append, List.length_append]
  omega

theorem buffers_are_written_in_turn_failed :
    ∃ tr f, webDownloadFile.Run tr f ∧
      called tr.outputs = [[1], [2, 3]] ∧ resolved tr.outputs = [[1]] ∧
      (taken tr.outputs).length ≤ (resolved tr.outputs).length + 1 ∧
      .returned .close .panicked ∈ tr.outputs := by
  have hexec : webDownloadFile.exec .new
      [⟨.write [1], .pending⟩, ⟨.write [2, 3], .pending⟩, ⟨.write [2, 3], .resolved⟩,
        ⟨.flush, .rejected "disk full"⟩, ⟨.close, .pending⟩] = some (_, _) := rfl
  have hrun : webDownloadFile.Run _ _ := EventMachine.exec_run _ hexec
  have hturn := buffers_are_written_in_turn hrun
  exact ⟨_, _, hrun, rfl, rfl, hturn.2.2.1, by decide⟩

end Glopfile.Client.WebDownloadFile

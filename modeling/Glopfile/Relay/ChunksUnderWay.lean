import Glopfile.Relay.UploadCalls

/-!
# Chunks under way

A chunk that is pending when an uploader starts is gone when its flush is answered, so that
none of its own chunks meets another.
-/

namespace Glopfile.Relay

open EventMachine (Trace)

variable {metadata : String} {r r' : System} {e : SystemEvent} {os : List Output}
  {tr : Trace SystemEvent Output} {token : Token} {waiter : Waiter} {c d : Command}
  {task : UploadTask}

/-- A handler that is about to send a chunk: it has been told that its last call went well. -/
def UploadTask.Ready (replies : Waiter → Option Reply) : UploadTask → Prop
  | .reading _ => True
  | .flushing reply | .sending _ reply => replies reply = some (.upload (.ok ()))
  | _ => False

/-- While the current uploader has a chunk under way, or is about to send one, no other
chunk is pending. -/
structure Clear (r : System) : Prop where
  queued : r.session.running = true → ∀ token chunk waiter,
    Command.uploadData token chunk waiter ∈ r.queue →
    r.session.state.uploaderToken = some token → ¬r.session.state.Holding
  ready : r.session.running = true → ∀ token task, r.uploads token = some task →
    task.Ready r.replies → r.session.state.uploaderToken = some token →
    ¬r.session.state.Holding

namespace Clear

theorem extend {t : System} (h : Clear r) (hsession : t.session = r.session)
    (hqueue : ∀ token chunk waiter, Command.uploadData token chunk waiter ∈ t.queue →
      Command.uploadData token chunk waiter ∈ r.queue ∨
        ∃ task, r.uploads token = some task ∧ task.Ready r.replies)
    (huploads : ∀ token task, t.uploads token = some task → task.Ready t.replies →
      ∃ before, r.uploads token = some before ∧ before.Ready r.replies) : Clear t := by
  constructor
  · intro hrunning token chunk waiter hmem hu
    rw [hsession] at hrunning hu ⊢
    rcases hqueue token chunk waiter hmem with hmem | ⟨task, htask, hready⟩
    · exact h.queued hrunning token chunk waiter hmem hu
    · exact h.ready hrunning token task htask hready hu
  · intro hrunning token task htask hready hu
    rw [hsession] at hrunning hu ⊢
    obtain ⟨before, hbefore, hready⟩ := huploads token task htask hready
    exact h.ready hrunning token before hbefore hready hu

theorem turn {rest : List Command} {session : Session} {effects : List Effect} (h : Clear r)
    (hattended : Attended r) (hqueue : r.queue = c :: rest)
    (hstep : r.session.step c = some (session, effects)) :
    Clear (effects.foldl System.deliver
      { r with session := session, queue := if session.running then rest else [] }) := by
  obtain ⟨hrunning, rfl, rfl⟩ := Session.step_eq_some.mp hstep
  have hc : c ∈ r.queue := by simp [hqueue]
  constructor
  · intro hrunning' token chunk waiter hmem hu hholding
    rw [System.deliverAll_session] at hrunning' hu hholding
    rw [System.deliverAll_queue, if_pos hrunning'] at hmem
    have hcalls : ∀ waiter', c.caller ≠ some (token, waiter') := by
      intro waiter' hcaller
      have hsingle := hattended.single
      rw [System.callers, hqueue, List.filterMap_cons, hcaller] at hsingle
      refine (List.nodup_cons.mp hsingle).1 (List.mem_filterMap.mpr ⟨_, hmem, rfl⟩)
    rcases handle_holding hholding hu with ⟨hbefore, hu⟩ | ⟨_, _, rfl, _⟩ | ⟨_, _, rfl⟩
    · exact h.queued hrunning token chunk waiter (by simp [hqueue, hmem]) hu hbefore
    · exact hcalls _ rfl
    · exact hcalls _ rfl
  · intro hrunning' token task htask hready hu hholding
    rw [System.deliverAll_session] at hu hholding
    rw [System.deliverAll_uploads] at htask
    have hidle : ∀ waiter, c.caller = some (token, waiter) → ¬task.Ready r.replies := by
      intro waiter hcaller hready
      obtain ⟨task', htask', hasks⟩ := hattended.asked c hc token waiter hcaller
      obtain rfl := Option.some.inj (htask.symm.trans htask')
      have halive : task.alive = true := by cases task <;> first | rfl | exact hready.elim
      have hawaits := Asks.awaits (hasks halive) (caller_waiter hcaller)
      have hnone := (hattended.unanswered waiter (List.mem_append_left _
        (List.mem_filterMap.mpr ⟨c, hc, caller_waiter hcaller⟩))).2
      cases task with
      | reading data => cases hawaits
      | flushing reply =>
        obtain rfl := Option.some.inj hawaits
        exact absurd (hready.symm.trans hnone) (by simp)
      | sending next reply =>
        obtain rfl := Option.some.inj hawaits
        exact absurd (hready.symm.trans hnone) (by simp)
      | starting reply => exact hready
      | ended => exact hready
    have hanswered : ∀ waiter, task.awaits = some waiter → (∀ reply, task ≠ .starting reply) →
        replyUpload waiter (.ok ()) ∉ (r.session.state.handle c).effects := by
      intro waiter hawaits hne heffect
      obtain ⟨hwaiter, hnot, hnot'⟩ := handle_ok_holding heffect hholding
      obtain ⟨hcaller, hasks⟩ := hattended.call_of_awaits hrunning hc hwaiter htask hawaits
      cases c with
      | startUpload _ _ reply => exact hne reply hasks
      | uploadData token' chunk reply =>
        obtain rfl := Option.some.inj hwaiter
        exact hnot token' chunk rfl
      | flushUpload token' reply =>
        obtain rfl := Option.some.inj hwaiter
        exact hnot' token' rfl
      | _ => cases hcaller
    have hbefore : task.Ready r.replies := by
      cases task with
      | reading data => trivial
      | flushing reply =>
        rcases System.deliverAll_replies hready with hold | heffect
        · exact hold
        · exact absurd heffect (hanswered reply rfl (by simp))
      | sending next reply =>
        rcases System.deliverAll_replies hready with hold | heffect
        · exact hold
        · exact absurd heffect (hanswered reply rfl (by simp))
      | starting reply => exact hready
      | ended => exact hready
    rcases handle_holding hholding hu with ⟨hholds, hu⟩ | ⟨_, _, rfl, _⟩ | ⟨_, _, rfl⟩
    · exact h.ready hrunning token task htask hbefore hu hholds
    · exact hidle _ rfl hbefore
    · exact hidle _ rfl hbefore

theorem mem_send (h : c ∈ (r.send d).queue) : c ∈ r.queue ∨ c = d := by
  unfold System.send at h
  split_ifs at h
  · simpa using h
  · exact .inl h

theorem same {t : System} (h : Clear r) (hsession : t.session = r.session)
    (hqueue : t.queue = r.queue) (huploads : t.uploads = r.uploads)
    (hreplies : t.replies = r.replies) : Clear t :=
  h.extend hsession (fun _ _ _ hmem => .inl (hqueue ▸ hmem)) fun _ task htask hready =>
    ⟨task, by rwa [huploads] at htask, by rwa [hreplies] at hready⟩

theorem other {t : System} (h : Clear r) (d : Command) (hsession : t.session = r.session)
    (hqueue : t.queue = (r.send d).queue) (hcaller : d.caller = none)
    (huploads : t.uploads = r.uploads) (hreplies : t.replies = r.replies) : Clear t := by
  refine h.extend hsession (fun token chunk waiter hmem => ?_) fun token task htask hready =>
    ⟨task, by rwa [huploads] at htask, by rwa [hreplies] at hready⟩
  rw [hqueue] at hmem
  rcases mem_send hmem with hmem | rfl
  · exact .inl hmem
  · cases hcaller

theorem update {t : System} {task' : UploadTask} (h : Clear r) (hsession : t.session = r.session)
    (hqueue : ∀ other chunk waiter, Command.uploadData other chunk waiter ∈ t.queue →
      Command.uploadData other chunk waiter ∈ r.queue ∨
        other = token ∧ ∃ task, r.uploads token = some task ∧ task.Ready r.replies)
    (huploads : t.uploads = Function.update r.uploads token (some task'))
    (hreplies : t.replies = r.replies)
    (hready : task'.Ready r.replies → ∃ task, r.uploads token = some task ∧
      task.Ready r.replies) : Clear t := by
  refine h.extend hsession (fun other chunk waiter hmem => ?_) fun other task htask hready' => ?_
  · rcases hqueue other chunk waiter hmem with hmem | ⟨rfl, htask⟩
    · exact .inl hmem
    · exact .inr htask
  · rw [hreplies] at hready'
    by_cases ho : other = token
    · subst ho
      rw [huploads, Function.update_self] at htask
      obtain rfl := Option.some.inj htask
      exact hready hready'
    · rw [huploads, Function.update_of_ne ho] at htask
      exact ⟨task, htask, hready'⟩

theorem change (h : Clear r) (hattended : Attended r) (hchange : Change r e r' os) : Clear r' := by
  -- A sender that has just been drawn is not answered.
  have hundrawn : ∀ waiter, r.fresh ≤ waiter → r.replies waiter ≠ some (.upload (.ok ())) :=
    fun waiter hle => by simp [hattended.undrawn waiter hle]
  cases hchange with
  | turn hqueue hstep => exact h.turn hattended hqueue hstep
  | request hplain =>
    rcases hplain with rfl | rfl | ⟨_, rfl⟩ <;> exact h.other _ rfl rfl rfl rfl rfl
  | download => exact h.other _ rfl rfl rfl rfl rfl
  | downloadStarted | downloadRefused | downloadMore | downloadFinal | downloadCancelled
  | websocketStarted | websocketRefused | websocketSent => exact h.same rfl rfl rfl rfl
  | downloadReplaced | downloadEnded => exact h.other _ rfl rfl rfl rfl rfl
  | websocketFrame | websocketEnded => exact h.other _ rfl rfl rfl rfl rfl
  | websocket => exact h.other _ rfl rfl rfl rfl rfl
  | upload =>
    refine h.update rfl (fun other chunk waiter hmem => ?_) rfl rfl nofun
    exact .inl ((mem_send hmem).resolve_right nofun)
  | uploadFlushing htask hreply =>
    refine h.update rfl (fun other chunk waiter hmem => ?_) rfl rfl fun hready =>
      absurd hready (hundrawn _ (Nat.le_refl _))
    exact .inl ((mem_send hmem).resolve_right nofun)
  | uploadReading htask hawaits hreply =>
    refine h.update rfl (fun other chunk waiter hmem => .inl hmem) rfl rfl fun _ => ?_
    exact ⟨_, htask, by rcases hawaits with ⟨rfl, -⟩ | rfl <;> exact hreply⟩
  | uploadRead htask =>
    exact h.update rfl (fun other chunk waiter hmem => .inl hmem) rfl rfl fun _ =>
      ⟨_, htask, trivial⟩
  | uploadEmpty htask =>
    refine h.update rfl (fun other chunk waiter hmem => ?_) rfl rfl fun hready =>
      absurd hready (hundrawn _ (Nat.le_succ _))
    rcases mem_send hmem with hmem | heq
    · exact .inl hmem
    · exact .inr ⟨(Command.uploadData.inj heq).1, _, htask, trivial⟩
  | uploadMore htask =>
    refine h.update rfl (fun other chunk waiter hmem => ?_) rfl rfl fun hready =>
      absurd hready (hundrawn _ (Nat.le_succ _))
    rcases mem_send hmem with hmem | heq
    · exact .inl hmem
    · exact .inr ⟨(Command.uploadData.inj heq).1, _, htask, trivial⟩
  | uploadFinal htask =>
    refine h.update rfl (fun other chunk waiter hmem => ?_) rfl rfl fun hready =>
      absurd hready (hundrawn _ (Nat.le_refl _))
    rcases mem_send hmem with hmem | heq
    · exact .inl hmem
    · exact .inr ⟨(Command.uploadData.inj heq).1, _, htask, trivial⟩
  | uploadResponded htask halive houtcome =>
    refine h.update rfl (fun other chunk waiter hmem => ?_) rfl rfl nofun
    exact .inl ((mem_send hmem).resolve_right nofun)
  | uploadCancelled htask halive =>
    refine h.update rfl (fun other chunk waiter hmem => ?_) rfl rfl nofun
    exact .inl ((mem_send hmem).resolve_right nofun)

theorem of_run (hrun : (relaySystem metadata).Run tr r) : Clear r := by
  refine (hrun.invariant (P := fun r => Attended r ∧ Clear r) ⟨.spawn, ?_, ?_⟩ ?_).2
  · intro _ _ _ _ hmem
    cases hmem
  · intro _ _ _ htask
    cases htask
  · intro r e r' os h _ hstep
    exact ⟨h.1.change (System.step_change hstep), h.2.change h.1 (System.step_change hstep)⟩

end Clear

theorem pending_ne_dataPending {log : Trace Command Effect} {session : Session}
    (hrun : (sessionTask metadata).Run log session) :
    session.state.pending ≠ .error .dataPending := by
  refine hrun.invariant (P := fun session => session.state.pending ≠ .error .dataPending) nofun ?_
  intro session c session' effects h _ hstep
  obtain ⟨-, rfl, rfl⟩ := Session.step_eq_some.mp hstep
  intro hpending
  rcases handle_pending_error hpending with hbefore | hraises
  · exact h hbefore
  · cases hraises

theorem handled_ne_dataPending {effects : List Effect} (hrun : (relaySystem metadata).Run tr r)
    (hmem : (c, effects) ∈ handledIn tr) :
    replyUpload waiter (.error .dataPending) ∉ effects := by
  revert hmem
  refine hrun.history (P := fun tr r => (c, effects) ∈ handledIn tr →
    replyUpload waiter (.error .dataPending) ∉ effects) nofun ?_
  intro tr r e r' os hpath ih _ hstep hmem heffect
  rw [handledIn_snoc] at hmem
  rcases List.mem_append.mp hmem with hmem | hmem
  · exact ih hmem heffect
  · cases System.step_change hstep with
    | turn hqueue hsession =>
      obtain ⟨rfl, rfl⟩ : c = _ ∧ effects = _ := by simpa [Output.handling] using hmem
      obtain ⟨hrunning, rfl, rfl⟩ := Session.step_eq_some.mp hsession
      rcases handle_error heffect with hpending | hraises | ⟨-, token, chunk, rfl, hu, hholding⟩
      · exact pending_ne_dataPending (handledIn_run hpath) hpending
      · cases hraises
      · exact (Clear.of_run hpath).queued hrunning token chunk waiter (by simp [hqueue]) hu hholding
    | _ => simp [Output.handling] at hmem

theorem UploadOutcome.of_dataPending (h : UploadOutcome r task (uploadError .dataPending)) :
    ∃ reply, r.replies reply = some (.upload (.error .dataPending)) := by
  generalize hresponse : uploadError .dataPending = response at h
  cases h with
  | @refused _ reply error hawaits hreply =>
    cases error with
    | dataPending => exact ⟨reply, hreply⟩
    | _ => simp [uploadError] at hresponse
  | done => simp [uploadError] at hresponse
  | lost => simp [uploadError] at hresponse
  | unread => simp [uploadError, readFailed] at hresponse

/-- No call is answered that a chunk is pending, and no upload request ends so. -/
theorem never_dataPending (hrun : (relaySystem metadata).Run tr r) :
    (∀ c effects waiter, (c, effects) ∈ handledIn tr →
      replyUpload waiter (.error .dataPending) ∉ effects) ∧
    ∀ token, Output.responded token (uploadError .dataPending) ∉ outputs tr := by
  refine ⟨fun c effects waiter hmem => handled_ne_dataPending hrun hmem, fun token => ?_⟩
  refine hrun.history (P := fun tr _ =>
    Output.responded token (uploadError .dataPending) ∉ outputs tr) (by simp [outputs]) ?_
  intro tr r e r' os hpath ih _ hstep hmem
  rw [outputs_snoc, List.mem_append] at hmem
  rcases hmem with hmem | hmem
  · exact ih hmem
  · cases System.step_change hstep with
    | uploadResponded htask halive houtcome =>
      obtain ⟨rfl, rfl⟩ := Output.responded.inj (List.mem_singleton.mp hmem)
      obtain ⟨reply, hreply⟩ := houtcome.of_dataPending
      obtain ⟨c, effects, hhandled, heffect⟩ := replies_handled hpath hreply
      exact handled_ne_dataPending hpath hhandled heffect
    | _ => simp at hmem

def flushAfterCancelled : List SystemEvent :=
  [.upload 0, .turn, .uploadResume 0, .turn, .uploadResume 0, .uploadBody 0 (.chunk [1]),
    .uploadBody 0 .eof, .turn, .uploadDrop 0, .turn, .upload 1, .turn, .uploadResume 5, .turn,
    .download 0, .turn, .uploadResume 5, .uploadBody 5 (.chunk [2]), .uploadBody 5 .eof,
    .turn]

theorem never_dataPending_flushed : ∃ tr r,
    (relaySystem "").exec (System.spawn "") flushAfterCancelled = some (tr, r) ∧
    r.replies 11 = some (.upload (.ok ())) ∧
    (∀ c effects waiter, (c, effects) ∈ handledIn tr →
      replyUpload waiter (.error .dataPending) ∉ effects) ∧
    ∀ token, Output.responded token (uploadError .dataPending) ∉ outputs tr := by
  have hexec : (relaySystem "").exec (System.spawn "") flushAfterCancelled = some (_, _) := rfl
  exact ⟨_, _, hexec, rfl, never_dataPending (EventMachine.exec_run _ hexec)⟩

end Glopfile.Relay

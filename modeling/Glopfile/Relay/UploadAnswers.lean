import Glopfile.Relay.UploadCalls

/-!
# What the upload requests are answered

`NotFound` is not among the errors of a session: it is what a handler makes of a call whose
reply sender is gone. A running session keeps the sender of every call that is waited for, so
it takes the end of the session for a request to be answered that there is none. A request
whose last call has been answered by then keeps its answer.
-/

namespace Glopfile.Relay

open EventMachine (Trace)

variable {metadata : String} {r r' : System} {e : SystemEvent} {os : List Output}
  {tr : Trace SystemEvent Output} {token : Token} {waiter : Waiter} {s : State} {c : Command}
  {task : UploadTask} {answer : Option Reply} {reply : Reply}

def Command.AsksUpload (c : Command) (waiter : Waiter) : Prop :=
  (∃ position, c = .checkStartUpload position waiter) ∨ ∃ token, c.caller = some (token, waiter)

/-- The last call of a handler has its answer: no other call follows it. -/
def UploadTask.Decided (replies : Waiter → Option Reply) : UploadTask → Prop
  | .ended => True
  | .reading _ => False
  | .sending none waiter => ∃ result, replies waiter = some (.upload result)
  | .starting waiter | .flushing waiter | .sending (some _) waiter =>
    ∃ error, replies waiter = some (.upload (.error error))

theorem handle_uploadReply (h : Effect.reply waiter reply ∈ (s.handle c).effects)
    (hcall : c.waiter = some waiter → c.AsksUpload waiter) : ∃ result, reply = .upload result := by
  have hasks (hnone : c.caller = none) (hcheck : ∀ position w, c ≠ .checkStartUpload position w) :
      c.waiter ≠ some waiter := by
    intro hw
    rcases hcall hw with ⟨position, hc⟩ | ⟨token, hcaller⟩
    · exact hcheck position waiter hc
    · rw [hnone] at hcaller
      cases hcaller
  have hc := s.handled c
  generalize s.handle c = o at hc h
  cases hc with
  | answered hanswer =>
    obtain ⟨rfl, rfl⟩ := Effect.reply.inj (List.mem_singleton.mp h)
    cases hanswer with
    | metadata => exact absurd rfl (hasks rfl (by simp))
    | _ => exact ⟨_, rfl⟩
  | released | downloads | finishHeld =>
    simp only [List.mem_append, List.mem_cons, reply_mem_replaceDownloader,
      reply_mem_sendUploadProgress, mem_replyTo, replyUpload, reduceCtorEq, List.not_mem_nil,
      false_or, or_false, Effect.reply.injEq] at h
    rcases h with ⟨_, -, -, rfl⟩ | ⟨rfl, -⟩
    · exact ⟨_, rfl⟩
    · exact absurd rfl (hasks rfl (by simp))
  | finishTold | finishIdle =>
    simp only [List.mem_append, reply_mem_replaceDownloader, List.mem_singleton, false_or,
      Effect.reply.injEq] at h
    exact absurd (congrArg some h.1.symm) (hasks rfl (by simp))
  | startRefused | starts =>
    obtain ⟨held, hevict⟩ := s.evictUploader_effects
    simp only [hevict, List.mem_append, mem_replyTo, List.mem_singleton, replyUpload,
      reply_mem_sendUploadProgress, or_false, Effect.reply.injEq] at h
    rcases h with ⟨_, -, -, rfl⟩ | ⟨-, rfl⟩ <;> exact ⟨_, rfl⟩
  | relays =>
    simp only [List.mem_cons, List.mem_append, reply_mem_sendUploadProgress, replyUpload,
      reduceCtorEq, List.not_mem_nil, false_or, or_false, Effect.reply.injEq] at h
    exact ⟨_, h.2⟩
  | signals _ hos hsignaling =>
    refine absurd (hos.reply h).1 (hasks ?_ ?_)
    · cases c <;> trivial
    · rintro position w rfl
      exact hsignaling
  | holds | flushes | downloaderLeft | uploaderLeft | uploaderDone | ignored => cases h

theorem System.response_of_reply (h : r.replies waiter = some reply) :
    r.response waiter = some (some reply) := by
  simp [System.response, h]

theorem System.replyHeld_of_queued (hrunning : r.session.running = true) (hc : c ∈ r.queue)
    (hwaiter : c.waiter = some waiter) : r.replyHeld waiter = true := by
  have hany : (r.queue.any fun c => c.waiter = some waiter) = true :=
    List.any_eq_true.mpr ⟨c, hc, by simpa using hwaiter⟩
  simp [System.replyHeld, hrunning, hany]

theorem uploadError_eq_notFound {error : UploadError} (h : uploadError error = .notFound) :
    error = .notFound := by
  cases error <;> simp_all [uploadError]

namespace System

theorem setUpload_uploads {other : Token} (hne : token ≠ other) :
    (r.setUpload other task).uploads token = r.uploads token := Function.update_of_ne hne _ _

theorem respond_frame {other : Token} {response : Response} (hne : token ≠ other) :
    (r.respond other response).1.uploads token = r.uploads token ∧
      ∀ response', Output.responded token response' ∉ (r.respond other response).2 :=
  ⟨setUpload_uploads hne, by simp [respond, hne]⟩

theorem upload_frame {other : Token} (hevent : e.uploader = some other) (hne : token ≠ other)
    (hstep : r.step e = some (r', os)) : r'.uploads token = r.uploads token ∧
      ∀ response, Output.responded token response ∉ os := by
  have hquiet : ∀ {t : System} {task : UploadTask}, t.uploads = r.uploads →
      (t.setUpload other task).uploads token = r.uploads token ∧
        ∀ response, Output.responded token response ∉ [] := fun heq =>
    ⟨(setUpload_uploads hne).trans (congrFun heq token), fun _ => List.not_mem_nil⟩
  cases e with
  | uploadResume other' =>
    obtain rfl : other' = other := Option.some.inj hevent
    obtain ⟨task, waiter, answer, -, -, -, hresumed⟩ := uploadResume_resumed hstep
    generalize uploadAnswer answer = result at hresumed
    cases hresumed with
    | flushes | starts | goesOn => exact hquiet rfl
    | done | refused => exact respond_frame hne
  | uploadBody other' item =>
    obtain rfl : other' = other := Option.some.inj hevent
    simp only [step, uploadBody] at hstep
    split at hstep
    · cases hstep
      exact respond_frame hne
    · cases hstep
      exact hquiet rfl
    · cases hstep
      exact hquiet rfl
    · cases hstep
      exact hquiet rfl
    · cases hstep
      exact hquiet rfl
    · cases hstep
  | uploadDrop other' =>
    obtain rfl : other' = other := Option.some.inj hevent
    simp only [step, uploadDrop, Option.ite_none_right_eq_some] at hstep
    cases hstep.2
    exact hquiet rfl
  | _ => cases hevent

theorem step_frame (hstep : r.step e = some (r', os)) (hother : e.uploader ≠ some token)
    (hnew : ∀ position, e = .upload position → token ≠ r.fresh) :
    r'.uploads token = r.uploads token ∧ ∀ response, Output.responded token response ∉ os := by
  have hne : ∀ other, e.uploader = some other → token ≠ other := fun other hevent heq =>
    hother (heq ▸ hevent)
  have hbesides (hevent : e.uploader = none) (hturn : e ≠ .turn)
      (hupload : ∀ position, e ≠ .upload position) : r'.uploads token = r.uploads token ∧
        ∀ response, Output.responded token response ∉ os :=
    have h := step_besides hstep hevent hturn hupload
    ⟨congrFun h.uploads token, h.quiet token⟩
  cases e with
  | turn =>
    obtain ⟨c, rest, session, effects, -, -, rfl, rfl⟩ := turn_eq_some hstep
    exact ⟨by rw [deliverAll_uploads], by simp⟩
  | upload position =>
    cases hstep
    exact ⟨setUpload_uploads (hnew position rfl), fun _ => List.not_mem_nil⟩
  | uploadResume other | uploadBody other item | uploadDrop other =>
    exact upload_frame rfl (hne other rfl) hstep
  | _ => exact hbesides rfl nofun nofun

end System

theorem Attended.keeps (h : Attended r) (hchange : Change r e r' os)
    (hreply : r.replies waiter = some reply) : r'.replies waiter = some reply := by
  cases hchange with
  | @turn c rest session effects hqueue hstep =>
    obtain ⟨-, rfl, rfl⟩ := Session.step_eq_some.mp hstep
    refine (System.deliverAll_silent fun other heffect => ?_).trans hreply
    rw [(h.unanswered waiter (sender_of_reply hqueue heffect)).2] at hreply
    cases hreply
  | _ => exact hreply

structure Heard (r : System) : Prop where
  queued : r.session.state.pending ≠ .error .notFound
  found : ∀ waiter, r.replies waiter ≠ some (.upload (.error .notFound))
  results : ∀ token task waiter reply, r.uploads token = some task →
    task.awaits = some waiter → r.replies waiter = some reply → ∃ result, reply = .upload result

namespace Heard

theorem turn {rest queue : List Command} {session : Session} {effects : List Effect}
    (h : Heard r) (hattended : Attended r) (hqueue : r.queue = c :: rest)
    (hstep : r.session.step c = some (session, effects)) :
    Heard (effects.foldl System.deliver { r with session := session, queue := queue }) := by
  obtain ⟨hrunning, rfl, rfl⟩ := Session.step_eq_some.mp hstep
  constructor
  · rw [System.deliverAll_session]
    intro hpending
    rcases handle_pending_error hpending with hbefore | hraises
    · exact h.queued hbefore
    · cases hraises
  · intro waiter hreply
    rcases System.deliverAll_replies hreply with hold | heffect
    · exact h.found waiter hold
    · rcases handle_error heffect with hpending | hraises | ⟨herror, _⟩
      · exact h.queued hpending
      · cases hraises
      · cases herror
  · intro token task waiter reply htask hawaits hreply
    rw [System.deliverAll_uploads] at htask
    rcases System.deliverAll_replies hreply with hold | heffect
    · exact h.results token task waiter reply htask hawaits hold
    · refine handle_uploadReply heffect fun hwaiter => .inr ⟨token, ?_⟩
      exact (hattended.call_of_awaits hrunning (by simp [hqueue]) hwaiter htask hawaits).1

theorem extend {t : System} (h : Heard r) (hattended : Attended r) (hsession : t.session = r.session)
    (hreplies : t.replies = r.replies) (huploads : ∀ token task, t.uploads token = some task →
      r.uploads token = some task ∨ ∀ waiter, task.awaits = some waiter → r.fresh ≤ waiter) :
    Heard t := by
  refine ⟨by rw [hsession]; exact h.queued, by rw [hreplies]; exact h.found, ?_⟩
  intro token task waiter reply htask hawaits hreply
  rw [hreplies] at hreply
  rcases huploads token task htask with hbefore | hnew
  · exact h.results token task waiter reply hbefore hawaits hreply
  · rw [hattended.undrawn waiter (hnew waiter hawaits)] at hreply
    cases hreply

theorem same {t : System} (h : Heard r) (hattended : Attended r) (hsession : t.session = r.session)
    (hreplies : t.replies = r.replies) (huploads : t.uploads = r.uploads) : Heard t :=
  h.extend hattended hsession hreplies fun _ _ htask => .inl (huploads ▸ htask)

theorem update {t : System} (h : Heard r) (hattended : Attended r)
    (hsession : t.session = r.session) (hreplies : t.replies = r.replies)
    (huploads : t.uploads = Function.update r.uploads token (some task))
    (hawaits : ∀ waiter, task.awaits = some waiter → r.fresh ≤ waiter) : Heard t := by
  refine h.extend hattended hsession hreplies fun other task' htask => ?_
  rw [huploads] at htask
  by_cases ho : other = token
  · subst ho
    rw [Function.update_self] at htask
    obtain rfl := Option.some.inj htask
    exact .inr hawaits
  · rw [Function.update_of_ne ho] at htask
    exact .inl htask

theorem change (h : Heard r) (hattended : Attended r) (hchange : Change r e r' os) : Heard r' := by
  have hdraws : ∀ n waiter, some (r.fresh + n) = some waiter → r.fresh ≤ waiter := fun n waiter hw =>
    Option.some.inj hw ▸ Nat.le_add_right _ _
  cases hchange with
  | turn hqueue hstep => exact h.turn hattended hqueue hstep
  | upload => exact h.update hattended rfl rfl rfl (hdraws 1)
  | uploadFlushing => exact h.update hattended rfl rfl rfl (hdraws 0)
  | uploadEmpty => exact h.update hattended rfl rfl rfl (hdraws 1)
  | uploadMore => exact h.update hattended rfl rfl rfl (hdraws 1)
  | uploadFinal => exact h.update hattended rfl rfl rfl (hdraws 0)
  | uploadReading | uploadRead | uploadResponded | uploadCancelled =>
    exact h.update hattended rfl rfl rfl nofun
  | _ => exact h.same hattended rfl rfl rfl

theorem spawn : Heard (System.spawn metadata) where
  queued := nofun
  found := nofun
  results := nofun

theorem of_run (hrun : (relaySystem metadata).Run tr r) : Heard r := by
  refine (hrun.invariant (P := fun r => Attended r ∧ Heard r) ⟨.spawn, .spawn⟩ ?_).2
  intro r e r' os h _ hstep
  exact ⟨h.1.change (System.step_change hstep), h.2.change h.1 (System.step_change hstep)⟩

/-- While the session runs, a call that is waited for keeps its sender until it is answered. -/
theorem answer_ne_notFound (h : Heard r) (hattended : Attended r)
    (hrunning : r.session.running = true) (htask : r.uploads token = some task)
    (hawaits : task.awaits = some waiter) (hresponse : r.response waiter = some answer) :
    System.uploadAnswer answer ≠ .error .notFound := by
  cases answer with
  | none =>
    obtain ⟨hnone, hheld⟩ := System.response_eq_some_none hresponse
    exfalso
    rcases hattended.waiting hrunning token task waiter htask hawaits with
      hreplied | ⟨c, hc, hcaller⟩ | ⟨hpending, -⟩
    · simp [hnone] at hreplied
    · rw [System.replyHeld_of_queued hrunning hc (caller_waiter hcaller)] at hheld
      cases hheld
    · simp [System.replyHeld, hrunning, hpending] at hheld
  | some reply =>
    have hreply := System.response_eq_some_some hresponse
    obtain ⟨result, rfl⟩ := h.results token task waiter reply htask hawaits hreply
    rintro rfl
    exact h.found waiter hreply

end Heard

theorem System.uploadResume_responded {response : Response}
    (hstep : r.uploadResume token = some (r', os)) (hmem : Output.responded token response ∈ os) :
    ∃ task waiter answer, r.uploads token = some task ∧ task.awaits = some waiter ∧
      r.response waiter = some answer ∧
      (response = .ok ∨ ∃ error, uploadAnswer answer = .error error ∧
        response = uploadError error) := by
  obtain ⟨task, waiter, answer, htask, hawaits, hresponse, hresumed⟩ := uploadResume_resumed hstep
  refine ⟨task, waiter, answer, htask, hawaits, hresponse, ?_⟩
  generalize uploadAnswer answer = result at hresumed ⊢
  cases hresumed with
  | flushes | starts | goesOn => cases hmem
  | done => exact .inl (Output.responded.inj (List.mem_singleton.mp hmem)).2
  | refused => exact .inr ⟨_, rfl, (Output.responded.inj (List.mem_singleton.mp hmem)).2⟩

theorem System.uploadBody_responded {item : BodyItem} {response : Response}
    (hstep : r.uploadBody token item = some (r', os))
    (hmem : Output.responded token response ∈ os) : response = readFailed := by
  unfold uploadBody at hstep
  split at hstep
  · cases hstep
    exact (Output.responded.inj (List.mem_singleton.mp hmem)).2
  all_goals
    cases hstep
    try cases hmem

theorem System.uploader_of_responded {response : Response} (hfresh : r.Fresh)
    (hstep : r.step e = some (r', os)) (hmem : Output.responded token response ∈ os) :
    e.uploader = some token := by
  by_contra hother
  cases step_change hstep with
  | uploadResponded htask halive houtcome =>
    obtain ⟨rfl, -⟩ := Output.responded.inj (List.mem_singleton.mp hmem)
    exact (step_frame hstep hother fun _ _ => Nat.ne_of_lt (hfresh.uploads_lt htask)).2 response hmem
  | _ => simp at hmem

theorem System.notFound_answered (hfresh : r.Fresh) (hstep : r.step e = some (r', os))
    (hmem : Output.responded token .notFound ∈ os) :
    ∃ task waiter answer, r.uploads token = some task ∧ task.awaits = some waiter ∧
      r.response waiter = some answer ∧ uploadAnswer answer = .error .notFound := by
  have hevent := uploader_of_responded hfresh hstep hmem
  cases e with
  | uploadResume other =>
    obtain rfl : other = token := Option.some.inj hevent
    obtain ⟨task, waiter, answer, htask, hawaits, hresponse, hok | ⟨error, herror, hnotFound⟩⟩ :=
      uploadResume_responded hstep hmem
    · cases hok
    · rw [uploadError_eq_notFound hnotFound.symm] at herror
      exact ⟨task, waiter, answer, htask, hawaits, hresponse, herror⟩
  | uploadBody other item =>
    obtain rfl : other = token := Option.some.inj hevent
    cases uploadBody_responded hstep hmem
  | uploadDrop other =>
    simp only [step, uploadDrop, Option.ite_none_right_eq_some] at hstep
    cases hstep.2
    cases hmem
  | _ => cases hevent

theorem responded_ne_notFound {response : Response} (h : Heard r) (hattended : Attended r)
    (hrunning : r.session.running = true) (hstep : r.step e = some (r', os))
    (hmem : Output.responded token response ∈ os) : response ≠ .notFound := by
  rintro rfl
  obtain ⟨task, waiter, answer, htask, hawaits, hresponse, herror⟩ :=
    System.notFound_answered hattended.fresh hstep hmem
  exact h.answer_ne_notFound hattended hrunning htask hawaits hresponse herror

theorem notFound_stopped (hrun : (relaySystem metadata).Run tr r)
    (hstep : r.step e = some (r', os)) (hmem : Output.responded token .notFound ∈ os) :
    r.session.running = false := by
  by_contra hrunning
  exact responded_ne_notFound (Heard.of_run hrun) (Attended.of_run hrun) (by simpa using hrunning)
    hstep hmem rfl

namespace UploadTask.Decided

variable {replies replies' : Waiter → Option Reply} {error : UploadError}

theorem mono (h : task.Decided replies)
    (hkeep : ∀ waiter reply, replies waiter = some reply → replies' waiter = some reply) :
    task.Decided replies' := by
  cases task with
  | ended => trivial
  | reading data => exact h
  | starting waiter | flushing waiter =>
    obtain ⟨error, hreply⟩ := h
    exact ⟨error, hkeep waiter _ hreply⟩
  | sending next waiter =>
    cases next with
    | none =>
      obtain ⟨result, hreply⟩ := h
      exact ⟨result, hkeep waiter _ hreply⟩
    | some data =>
      obtain ⟨error, hreply⟩ := h
      exact ⟨error, hkeep waiter _ hreply⟩

theorem of_error (hawaits : task.awaits = some waiter)
    (hreply : replies waiter = some (.upload (.error error))) : task.Decided replies := by
  cases task with
  | starting reply | flushing reply =>
    obtain rfl := Option.some.inj hawaits
    exact ⟨error, hreply⟩
  | sending next reply =>
    obtain rfl := Option.some.inj hawaits
    cases next with
    | none => exact ⟨_, hreply⟩
    | some data => exact ⟨error, hreply⟩
  | reading data => cases hawaits
  | ended => cases hawaits

theorem answered (h : task.Decided replies) (hawaits : task.awaits = some waiter) :
    ∃ result, replies waiter = some (.upload result) := by
  cases task with
  | starting reply | flushing reply =>
    obtain rfl := Option.some.inj hawaits
    obtain ⟨error, hreply⟩ := h
    exact ⟨_, hreply⟩
  | sending next reply =>
    obtain rfl := Option.some.inj hawaits
    cases next with
    | none => exact h
    | some data =>
      obtain ⟨error, hreply⟩ := h
      exact ⟨_, hreply⟩
  | reading data => cases hawaits
  | ended => cases hawaits

theorem resume (h : task.Decided r.replies) (htask : r.uploads token = some task)
    (hstep : r.uploadResume token = some (r', os)) : r'.uploads token = some .ended := by
  obtain ⟨task', waiter, answer, htask', hawaits, hresponse, hresumed⟩ :=
    System.uploadResume_resumed hstep
  obtain rfl := Option.some.inj (htask.symm.trans htask')
  obtain ⟨result, hreply⟩ := h.answered hawaits
  obtain rfl := Option.some.inj (hresponse.symm.trans (System.response_of_reply hreply))
  have hrefused : (∃ error, r.replies waiter = some (.upload (.error error))) → result ≠ .ok () := by
    rintro ⟨error, herror⟩ rfl
    rw [hreply] at herror
    cases herror
  generalize hanswer : System.uploadAnswer (some (.upload result)) = answer at hresumed
  obtain rfl : result = answer := hanswer
  cases hresumed with
  | flushes | starts | goesOn =>
    obtain rfl := Option.some.inj hawaits
    exact absurd rfl (hrefused h)
  | done | refused => exact Function.update_self _ _ _

theorem step (h : task.Decided r.replies) (hattended : Attended r)
    (htask : r.uploads token = some task) (hstep : r.step e = some (r', os)) :
    ∃ task', r'.uploads token = some task' ∧ task'.Decided r'.replies := by
  by_cases hevent : e.uploader = some token
  · refine ⟨.ended, ?_, trivial⟩
    cases e with
    | uploadResume other =>
      obtain rfl : other = token := Option.some.inj hevent
      exact h.resume htask hstep
    | uploadBody other item =>
      obtain rfl : other = token := Option.some.inj hevent
      cases task with
      | reading data => exact h.elim
      | _ => simp [System.step, System.uploadBody, htask] at hstep
    | uploadDrop other =>
      obtain rfl : other = token := Option.some.inj hevent
      simp only [System.step, System.uploadDrop, Option.ite_none_right_eq_some] at hstep
      cases hstep.2
      exact Function.update_self _ _ _
    | _ => cases hevent
  · refine ⟨task, ?_, h.mono fun waiter reply => hattended.keeps (System.step_change hstep)⟩
    rw [(System.step_frame hstep hevent fun _ _ => Nat.ne_of_lt (hattended.fresh.uploads_lt htask)).1, htask]

theorem responded {response : Response} (h : task.Decided r.replies) (hheard : Heard r)
    (hattended : Attended r) (htask : r.uploads token = some task)
    (hstep : r.step e = some (r', os)) (hmem : Output.responded token response ∈ os) :
    response ≠ .notFound := by
  rintro rfl
  obtain ⟨task', waiter, answer, htask', hawaits, hresponse, herror⟩ :=
    System.notFound_answered hattended.fresh hstep hmem
  obtain rfl := Option.some.inj (htask.symm.trans htask')
  obtain ⟨result, hreply⟩ := h.answered hawaits
  obtain rfl := Option.some.inj (hresponse.symm.trans (System.response_of_reply hreply))
  obtain rfl : result = .error .notFound := herror
  exact hheard.found waiter hreply

end UploadTask.Decided

def System.Finishes (r : System) (task : UploadTask) : Prop :=
  ∃ reply rest waiter, r.queue = .finishDownload reply :: rest ∧
    r.session.state.uploader.isSome = true ∧ r.session.state.pending.waiter = some waiter ∧
    task.awaits = some waiter

theorem System.Finishes.decides (h : r.Finishes task) (hattended : Attended r)
    (hstep : r.turn = some (r', os)) : task.Decided r'.replies := by
  obtain ⟨reply, rest, waiter, hqueue, huploader, hpending, hawaits⟩ := h
  obtain ⟨c, rest', session, effects, hqueue', hsession, rfl, rfl⟩ := turn_eq_some hstep
  obtain ⟨rfl, rfl⟩ := List.cons.inj (hqueue.symm.trans hqueue')
  obtain ⟨-, rfl, rfl⟩ := Session.step_eq_some.mp hsession
  obtain ⟨chunk, position, size, hdata⟩ := Pending.eq_data_of_waiter hpending
  have hne : waiter ≠ reply := fun heq =>
    (hattended.distinct_head hqueue (by rw [heq]; rfl)).2 hpending
  have heffects : ∀ answer, Effect.reply waiter answer ∈
      (r.session.state.handle (.finishDownload reply)).effects ↔
        answer = .upload (.error .finished) := by
    intro answer
    rcases r.session.state.finishDownload_cases reply with
      ⟨_, _, hno, _⟩ | ⟨hno, _⟩ | ⟨_, _, _, _, _, _, hp, hf⟩
    · exact absurd hdata (hno _ _ _ _)
    · simp [hno] at huploader
    · obtain ⟨-, rfl, -⟩ := Pending.data.inj (hp.symm.trans hdata)
      simp [State.handle, hf, replyUpload, hne]
  have hsender : waiter ∈ r.senders := List.mem_append_right _ (by simp [hpending])
  refine .of_error hawaits (System.deliverAll_replies_eq ?_ ((heffects _).mpr rfl) fun answer =>
    (heffects answer).mp)
  exact (hattended.unanswered waiter hsender).2

def System.Checks (r : System) (waiter : Waiter) : Prop :=
  (∃ result, r.replies waiter = some (.upload result)) ∨
    r.session.running = true ∧ ∃ position, Command.checkStartUpload position waiter ∈ r.queue

def System.Attends (r : System) (token : Token) : Prop :=
  ∃ task, r.uploads token = some task ∧ (r.session.running = true ∨ task.Decided r.replies)

def System.endsFinished (r : System) : SystemEvent → Bool
  | .turn =>
    match r.queue.head? with
    | some (.finishDownload reply) =>
      r.session.running && (r.session.state.handle (.finishDownload reply)).flow = .brk
    | some (.disconnected token .uploader) =>
      r.session.running && (r.session.state.handle (.disconnected token .uploader)).flow = .brk
    | _ => false
  | _ => false

namespace System

theorem running_of_endsFinished (h : r.endsFinished e = true) : r.session.running = true := by
  unfold endsFinished at h
  split at h
  · split at h
    · simp only [Bool.and_eq_true] at h
      exact h.1
    · simp only [Bool.and_eq_true] at h
      exact h.1
    · cases h
  · cases h

theorem stopped_of_endsFinished (h : r.endsFinished e = true) (hstep : r.step e = some (r', os)) :
    r'.session.running = false := by
  unfold endsFinished at h
  split at h
  · obtain ⟨c, rest, session, effects, hqueue, hsession, rfl, rfl⟩ := turn_eq_some hstep
    obtain ⟨-, rfl, rfl⟩ := Session.step_eq_some.mp hsession
    rw [deliverAll_session]
    simp only [hqueue, List.head?_cons] at h
    split at h
    · next hc =>
      cases hc
      simp only [Bool.and_eq_true, decide_eq_true_eq] at h
      simp [h.2]
    · next hc =>
      cases hc
      simp only [Bool.and_eq_true, decide_eq_true_eq] at h
      simp [h.2]
    · cases h
  · cases h

theorem Checks.step (h : r.Checks waiter) (hattended : Attended r)
    (hstep : r.step e = some (r', os))
    (hends : r'.session.running = true ∨ (r.replies waiter).isSome = true) :
    r'.Checks waiter := by
  have hkeeps : (∃ result, r.replies waiter = some (.upload result)) → r'.Checks waiter :=
    fun ⟨result, hreply⟩ => .inl ⟨result, hattended.keeps (step_change hstep) hreply⟩
  rcases h with hreplied | ⟨hrunning, position, hmem⟩
  · exact hkeeps hreplied
  have hnone := (hattended.unanswered waiter (List.mem_append_left _
    (List.mem_filterMap.mpr ⟨_, hmem, rfl⟩))).2
  have hrunning' := hends.resolve_right (by simp [hnone])
  cases step_change hstep with
  | turn hqueue hsession =>
    obtain ⟨-, rfl, rfl⟩ := Session.step_eq_some.mp hsession
    rw [deliverAll_session] at hrunning'
    rcases List.mem_cons.mp (hqueue ▸ hmem) with rfl | hmem
    · exact .inl ⟨_, deliverAll_replies_eq hnone (List.mem_singleton_self _) fun other ho =>
        (Effect.reply.inj (List.mem_singleton.mp ho)).2⟩
    · refine .inr ⟨by rw [deliverAll_session]; exact hrunning', position, ?_⟩
      rwa [deliverAll_queue, if_pos hrunning']
  | downloadStarted | downloadRefused | downloadMore | downloadFinal | downloadCancelled
  | uploadReading | uploadRead | websocketStarted | websocketRefused | websocketSent =>
    exact .inr ⟨hrunning', position, hmem⟩
  | _ => exact .inr ⟨hrunning', position, queue_subset_send (r := r) hmem⟩

theorem Checks.answered (h : r.Checks waiter) (hattended : Attended r)
    (hresponse : r.response waiter = some answer) :
    ∃ result, r.replies waiter = some (.upload result) ∧ answer = some (.upload result) := by
  rcases h with ⟨result, hreply⟩ | ⟨hrunning, position, hmem⟩
  · exact ⟨result, hreply, Option.some.inj (hresponse.symm.trans (response_of_reply hreply))⟩
  · have hnone := (hattended.unanswered waiter (List.mem_append_left _
      (List.mem_filterMap.mpr ⟨_, hmem, rfl⟩))).2
    simp [response, hnone, replyHeld_of_queued hrunning hmem rfl] at hresponse

theorem setUpload_isSome {other : Token} (h : (r.uploads token).isSome = true) :
    ((r.setUpload other task).uploads token).isSome = true := by
  by_cases ho : token = other
  · subst ho
    simp [setUpload]
  · rwa [setUpload_uploads ho]

theorem upload_kept (hstep : r.step e = some (r', os)) (h : (r.uploads token).isSome = true) :
    (r'.uploads token).isSome = true := by
  cases step_change hstep with
  | turn => rwa [deliverAll_uploads]
  | upload | uploadFlushing | uploadReading | uploadRead | uploadEmpty | uploadMore | uploadFinal
  | uploadResponded | uploadCancelled => exact setUpload_isSome (r := r) h
  | _ => exact h

theorem Attends.step (h : r.Attends token) (hattended : Attended r)
    (hstep : r.step e = some (r', os))
    (hends : r'.session.running = true ∨ ∀ task, r.uploads token = some task →
      task.Decided r.replies ∨ e = .turn ∧ r.Finishes task) : r'.Attends token := by
  obtain ⟨task, htask, hserved⟩ := h
  rcases hends with hrunning | hdecided
  · have hkept := upload_kept hstep (by rw [htask]; rfl : (r.uploads token).isSome = true)
    obtain ⟨task', htask'⟩ := Option.isSome_iff_exists.mp hkept
    exact ⟨task', htask', .inl hrunning⟩
  · rcases hdecided task htask with hdecided | ⟨rfl, hfinishes⟩
    · obtain ⟨task', htask', hdecided'⟩ := hdecided.step hattended htask hstep
      exact ⟨task', htask', .inr hdecided'⟩
    · refine ⟨task, ?_, .inr (hfinishes.decides hattended hstep)⟩
      rwa [(step_frame hstep nofun fun _ _ => Nat.ne_of_lt (hattended.fresh.uploads_lt htask)).1]

theorem Attends.responded {response : Response} (h : r.Attends token) (hheard : Heard r)
    (hattended : Attended r) (hstep : r.step e = some (r', os))
    (hmem : Output.responded token response ∈ os) : response ≠ .notFound := by
  obtain ⟨task, htask, hrunning | hdecided⟩ := h
  · exact responded_ne_notFound hheard hattended hrunning hstep hmem
  · exact hdecided.responded hheard hattended htask hstep hmem

end System

end Glopfile.Relay

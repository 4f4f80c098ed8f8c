import Glopfile.Relay.EndedSessions
import Glopfile.Relay.Registry

/-!
# What requests to a node are answered

A request that waits for its session has its reply, or its command is in the queue, or the
session has ended without answering it. The metadata that is answered are those of the session
with the id of the path; a 404 for an id that was created says that the session has ended, and
then it is final.
-/

namespace Glopfile.Relay

open Base64 (Engine Standard)
open EventMachine (Trace)

variable {engine : Engine Standard} {n n' : Node} {e : NodeEvent} {os os' : List NodeOutput}
  {tr : Trace NodeEvent NodeOutput} {id : SessionId} {metadata : String} {request : Request}
  {r r' : System} {event : SystemEvent} {outputs : List Output} {waiter : Waiter} {s : State}
  {c : Command}

def Request.command : Request → Waiter → Command
  | .downloadMeta => .metadata
  | .finishDownload => .finishDownload
  | .startUpload position => .checkStartUpload position

def Request.Fits (metadata : String) : Request → Reply → Prop
  | .downloadMeta, reply => reply = .metadata metadata
  | .finishDownload, reply => reply = .done
  | .startUpload _, reply => ∃ result, reply = .upload result ∧ result ≠ .error .notFound

/-! ### One session -/

theorem handle_metadata : (s.handle c).state.metadata = s.metadata := by
  have hevict : s.evictUploader.1.metadata = s.metadata := by
    simp only [State.evictUploader, State.terminateUploader]
    split
    · split
      · rfl
      · split <;> rfl
    · rfl
  have hc := s.handled c
  generalize s.handle c = o at hc ⊢
  cases hc with
  | startRefused | starts => exact hevict
  | signals _ _ _ hmetadata => exact hmetadata
  | _ => rfl

theorem metadata_of_run {log : Trace SystemEvent Output} (hrun : (relaySystem metadata).Run log r) :
    r.session.state.metadata = metadata := by
  refine hrun.invariant (P := fun r => r.session.state.metadata = metadata) rfl ?_
  intro r event r' outputs ih _ hstep
  cases System.step_change hstep with
  | turn hqueue hsession =>
    obtain ⟨-, rfl, rfl⟩ := Session.step_eq_some.mp hsession
    rw [System.deliverAll_session]
    exact handle_metadata.trans ih
  | _ => exact ih

theorem handle_request (request : Request) (hpending : s.pending.waiter ≠ some waiter) :
    (∃ reply, Effect.reply waiter reply ∈ (s.handle (request.command waiter)).effects) ∧
      ∀ reply, Effect.reply waiter reply ∈ (s.handle (request.command waiter)).effects →
        request.Fits s.metadata reply := by
  cases request with
  | downloadMeta => simp [Request.command, State.handle, Request.Fits]
  | finishDownload =>
    simp only [Request.command, State.handle, Request.Fits]
    rcases s.finishDownload_cases waiter with
      ⟨_, _, _, hf⟩ | ⟨_, hf⟩ | ⟨_, chunk, held, position, size, _, hp, hf⟩
    · simp [hf]
    · simp [hf]
    · have hne : held ≠ some waiter := by
        rw [hp] at hpending
        exact hpending
      have hno : ∀ reply, Effect.reply waiter reply ∉ replyTo held (.error .finished) := by
        intro reply hmem
        obtain ⟨w, hw, heq⟩ := mem_replyTo.mp hmem
        obtain ⟨rfl, -⟩ := Effect.reply.inj heq
        exact hne hw
      simp [hf, hno]
  | startUpload position =>
    refine ⟨⟨_, List.mem_singleton_self _⟩, fun reply hmem => ?_⟩
    obtain ⟨-, rfl⟩ := Effect.reply.inj (List.mem_singleton.mp hmem)
    refine ⟨_, rfl, fun hnotFound => ?_⟩
    obtain ⟨position', heq⟩ := checkStartPosition_error hnotFound
    cases heq

inductive System.Asked (metadata : String) (request : Request) (waiter : Waiter) (r : System) :
    Prop
  | replied {reply : Reply} (hreply : r.replies waiter = some reply)
      (hfits : request.Fits metadata reply) : Asked metadata request waiter r
  | queued (hrunning : r.session.running = true) (hmem : request.command waiter ∈ r.queue) :
      Asked metadata request waiter r
  | lost (hstopped : r.session.running = false) (hnone : r.replies waiter = none) :
      Asked metadata request waiter r

theorem Request.command_waiter (request : Request) (waiter : Waiter) :
    (request.command waiter).waiter = some waiter := by
  cases request <;> rfl

namespace System

theorem stopped_step (hstopped : r.session.running = false)
    (hstep : r.step event = some (r', outputs)) :
    r'.session.running = false ∧ r'.replies = r.replies := by
  cases step_change hstep with
  | turn hqueue hsession =>
    have hrunning := (Session.step_eq_some.mp hsession).1
    rw [hstopped] at hrunning
    cases hrunning
  | _ => exact ⟨hstopped, rfl⟩

theorem Asked.step (h : Asked metadata request waiter r) (hattended : Attended r)
    (hmetadata : r.session.state.metadata = metadata)
    (hstep : r.step event = some (r', outputs)) : Asked metadata request waiter r' := by
  cases h with
  | replied hreply hfits => exact .replied (hattended.keeps (step_change hstep) hreply) hfits
  | lost hstopped hnone =>
    obtain ⟨hstopped', hreplies⟩ := stopped_step hstopped hstep
    exact .lost hstopped' (by rw [hreplies]; exact hnone)
  | queued hrunning hmem =>
    cases step_change hstep with
    | @turn c rest _ _ hqueue hsession =>
      obtain ⟨-, rfl, rfl⟩ := Session.step_eq_some.mp hsession
      have hsender := hattended.unanswered waiter (List.mem_append_left _
        (List.mem_filterMap.mpr ⟨_, hmem, request.command_waiter waiter⟩))
      rcases List.mem_cons.mp (hqueue ▸ hmem) with rfl | hrest
      · have hfree : r.session.state.pending.waiter ≠ some waiter :=
          (hattended.distinct_head hqueue (request.command_waiter waiter)).2
        obtain ⟨hsome, hfits⟩ := handle_request request hfree
        obtain ⟨reply, hreply⟩ := Option.isSome_iff_exists.mp
          (deliverAll_replies_isSome (.inr hsome))
        refine .replied hreply (hmetadata ▸ hfits reply ?_)
        rcases deliverAll_replies hreply with hold | hmem
        · rw [hsender.2] at hold
          cases hold
        · exact hmem
      · cases hflow : (r.session.state.handle c).flow with
        | cont =>
          refine .queued (by rw [deliverAll_session]; simp) ?_
          rw [deliverAll_queue]
          simpa [hflow] using hrest
        | brk =>
          refine .lost (by rw [deliverAll_session]; simp) ?_
          refine (deliverAll_silent fun reply hmem => ?_).trans hsender.2
          have hqueued : waiter ∈ rest.filterMap Command.waiter :=
            List.mem_filterMap.mpr ⟨_, hrest, request.command_waiter waiter⟩
          rcases handle_reply_of hmem with hc | hp
          · exact (hattended.distinct_head hqueue hc).1 hqueued
          · exact hattended.distinct_pending hqueue hp hqueued
    | downloadStarted | downloadRefused | downloadMore | downloadFinal | downloadCancelled
    | uploadReading | uploadRead | websocketStarted | websocketRefused | websocketSent =>
      exact .queued hrunning hmem
    | _ => exact .queued hrunning (queue_subset_send (r := r) hmem)

theorem Asked.sent (hattended : Attended r) (hstep : r.step request.event = some (r', outputs)) :
    Asked metadata request r.fresh r' := by
  have hr' : r' = (r.draw 1).send (request.command r.fresh) := by
    cases request <;> exact (congrArg Prod.fst (Option.some.inj hstep)).symm
  subst hr'
  cases hrunning : r.session.running with
  | true => exact .queued hrunning (by simp [send, draw, hrunning])
  | false => exact .lost hrunning (hattended.undrawn r.fresh (Nat.le_refl _))

theorem Asked.response {answer : Option Reply} (h : Asked metadata request waiter r)
    (hattended : Attended r) (hresponse : r.response waiter = some answer) :
    (∃ reply, answer = some reply ∧ request.Fits metadata reply) ∨
      answer = none ∧ r.session.running = false := by
  cases h with
  | @replied reply hreply hfits =>
    exact .inl ⟨reply, Option.some.inj (hresponse.symm.trans (response_of_reply hreply)), hfits⟩
  | queued hrunning hmem =>
    have hsender := hattended.unanswered waiter (List.mem_append_left _
      (List.mem_filterMap.mpr ⟨_, hmem, request.command_waiter waiter⟩))
    have hheld := replyHeld_of_queued hrunning hmem (request.command_waiter waiter)
    simp [System.response, hsender.2, hheld] at hresponse
  | lost hstopped hnone =>
    refine .inr ⟨?_, hstopped⟩
    simpa [System.response, hnone, replyHeld, hstopped, eq_comm] using hresponse

end System

theorem Request.response_none (engine : Engine Standard) (id : SessionId) (request : Request) :
    request.response engine id none = .status .notFound := by
  cases request <;> rfl

theorem Request.Fits.ne_notFound {reply : Reply} (h : request.Fits metadata reply)
    (engine : Engine Standard) (id : SessionId) :
    request.response engine id (some reply) ≠ .status .notFound := by
  cases request with
  | downloadMeta =>
    obtain rfl : reply = .metadata metadata := h
    exact ApiResponse.noConfusion
  | finishDownload => exact ApiResponse.noConfusion
  | startUpload position =>
    obtain ⟨result, rfl, hne⟩ := h
    cases result with
    | ok => simp [Request.response, System.uploadAnswer]
    | error error =>
      intro heq
      exact hne (congrArg _ (uploadError_eq_notFound (ApiResponse.status.inj heq)))

/-! ### All sessions -/

def RequestTask.place : RequestTask → Option (String × ℕ)
  | .found text _ handle | .waiting text _ handle _ => some (text, handle)
  | .ended => none

structure Placed (engine : Engine Standard) (n : Node) : Prop where
  named : ∀ (number : ℕ) request text handle, n.requests[number]? = some request →
    request.place = some (text, handle) →
      ∃ task, n.tasks[handle]? = some task ∧ SessionId.decode engine text = .ok task.id
  asked : ∀ (number : ℕ) text request handle reply,
    n.requests[number]? = some (.waiting text request handle reply) →
      ∃ task, n.tasks[handle]? = some task ∧
        task.system.Asked task.system.session.state.metadata request reply

section Sessions
variable {handle : ℕ} {task : NodeTask}

theorem Kept.attended (h : Kept os n) (htask : n.tasks[handle]? = some task) :
    Attended task.system := by
  obtain ⟨metadata, -, hrun⟩ := h.tasks handle task htask
  exact Attended.of_run hrun

theorem Kept.creation (h : Kept os n) (htask : n.tasks[handle]? = some task) :
    (creations os)[handle]? = some (task.id, task.system.session.state.metadata) := by
  obtain ⟨metadata, hget, hrun⟩ := h.tasks handle task htask
  rw [metadata_of_run hrun]
  exact hget

theorem step_metadata (hstep : r.step event = some (r', outputs)) :
    r'.session.state.metadata = r.session.state.metadata := by
  cases System.step_change hstep with
  | turn hqueue hsession =>
    obtain ⟨-, rfl, rfl⟩ := Session.step_eq_some.mp hsession
    rw [System.deliverAll_session]
    exact handle_metadata
  | _ => rfl

theorem Placed.keeps (h : Placed engine n) (hkept : Kept os n)
    (hchange : NodeChange engine n e n' os') :
    (∀ (number : ℕ) request text handle, n.requests[number]? = some request →
      request.place = some (text, handle) →
        ∃ task, n'.tasks[handle]? = some task ∧ SessionId.decode engine text = .ok task.id) ∧
    ∀ (number : ℕ) text request handle reply,
      n.requests[number]? = some (.waiting text request handle reply) →
        ∃ task, n'.tasks[handle]? = some task ∧
          task.system.Asked task.system.session.state.metadata request reply := by
  constructor
  · intro number request text handle hrequest hplace
    obtain ⟨task, htask, hdecode⟩ := h.named number request text handle hrequest hplace
    obtain ⟨task', htask', hid, -⟩ := hchange.task htask
    exact ⟨task', htask', by rw [hid]; exact hdecode⟩
  · intro number text request handle reply hrequest
    obtain ⟨task, htask, hasked⟩ := h.asked number text request handle reply hrequest
    obtain ⟨task', htask', -, hsame | ⟨event, outputs, hstep⟩⟩ := hchange.task htask
    · exact ⟨task', htask', by rw [hsame]; exact hasked⟩
    · refine ⟨task', htask', ?_⟩
      rw [step_metadata hstep]
      exact hasked.step (hkept.attended htask) rfl hstep

theorem Placed.step (h : Placed engine n) (hkept : Kept os n) (hregistered : Registered n)
    (hchange : NodeChange engine n e n' os') : Placed engine n' := by
  obtain ⟨hnamed, hasked⟩ := h.keeps hkept hchange
  cases hchange with
  | created | found | refused | dropped | stepped | closed | removed => exact ⟨hnamed, hasked⟩
  | @began text request id handle hdecode hregistry =>
    refine ⟨fun number request' text' handle' hget hplace => ?_,
      fun number text' request' handle' reply hget => ?_⟩
    · rcases Node.of_addRequest hget with rfl | hold
      · obtain ⟨rfl, rfl⟩ := Prod.mk.inj (Option.some.inj hplace)
        obtain ⟨task, htask, rfl, -⟩ := (hregistered.registry id handle).mp hregistry
        exact ⟨task, htask, hdecode⟩
      · exact hnamed number request' text' handle' hold hplace
    · rcases Node.of_addRequest hget with heq | hold
      · cases heq
      · exact hasked number text' request' handle' reply hold
  | failed =>
    refine ⟨fun number request' text' handle' hget hplace => ?_,
      fun number text' request' handle' reply hget => ?_⟩
    · rcases Node.of_addRequest hget with rfl | hold
      · cases hplace
      · exact hnamed number request' text' handle' hold hplace
    · rcases Node.of_addRequest hget with heq | hold
      · cases heq
      · exact hasked number text' request' handle' reply hold
  | answered | requestDropped =>
    refine ⟨fun number request' text' handle' hget hplace => ?_,
      fun number text' request' handle' reply hget => ?_⟩
    · rcases Node.of_setRequest hget with rfl | hold
      · cases hplace
      · exact hnamed number request' text' handle' hold hplace
    · rcases Node.of_setRequest hget with heq | hold
      · cases heq
      · exact hasked number text' request' handle' reply hold
  | @sent sentNumber handle text request task r outputs hrequest htask hstep =>
    refine ⟨fun number request' text' handle' hget hplace => ?_,
      fun number text' request' handle' reply hget => ?_⟩
    · rcases Node.of_setRequest hget with rfl | hold
      · exact hnamed sentNumber _ text' handle' hrequest hplace
      · exact hnamed number request' text' handle' hold hplace
    · rcases Node.of_setRequest hget with heq | hold
      · obtain ⟨rfl, rfl, rfl, rfl⟩ := RequestTask.waiting.inj heq
        refine ⟨{ task with system := r }, ?_, System.Asked.sent (hkept.attended htask) hstep⟩
        exact (Node.setTask_tasks htask _).trans (if_pos rfl)
      · exact hasked number text' request' handle' reply hold

theorem Placed.of_path (hpath : (relayNode engine).Path NewIds .new tr n) : Placed engine n := by
  refine hpath.history (P := fun _ n => Placed engine n) ?_ ?_
  · exact ⟨fun _ _ _ _ hrequest => by simp [Node.new] at hrequest,
      fun _ _ _ _ _ hrequest => by simp [Node.new] at hrequest⟩
  · intro tr n e n' os hpath ih _ hstep
    exact ih.step (Kept.of_path hpath) (Registered.of_path hpath) (Node.step_change hstep)

def Gone (n : Node) (id : SessionId) : Prop :=
  ∃ (handle : ℕ) (task : NodeTask), n.tasks[handle]? = some task ∧ task.id = id ∧
    task.system.session.running = false

theorem Gone.step (h : Gone n id) (hchange : NodeChange engine n e n' os) : Gone n' id := by
  obtain ⟨handle, task, htask, hid, hstopped⟩ := h
  obtain ⟨task', htask', hid', hsame | ⟨event, outputs, hstep⟩⟩ := hchange.task htask
  · exact ⟨handle, task', htask', hid'.trans hid, by rw [hsame]; exact hstopped⟩
  · exact ⟨handle, task', htask', hid'.trans hid, (System.stopped_step hstopped hstep).1⟩

theorem gone_of_refused {text : String} (hkept : Kept os n) (hregistered : Registered n)
    (hcreated : (id, metadata) ∈ creations os) (hdecode : SessionId.decode engine text = .ok id)
    (hrefused : LookupFails engine n text .notFound) : Gone n id := by
  obtain ⟨handle, hget⟩ := List.mem_iff_getElem?.mp hcreated
  have hlt : handle < n.tasks.length := by
    rw [hkept.length]
    exact (List.getElem?_eq_some_iff.mp hget).1
  obtain ⟨task, htask⟩ : ∃ task, n.tasks[handle]? = some task := ⟨_, List.getElem?_eq_getElem hlt⟩
  obtain rfl : task.id = id := by
    obtain ⟨_, hget', -⟩ := hkept.tasks handle task htask
    exact congrArg Prod.fst (Option.some.inj (hget'.symm.trans hget))
  refine ⟨handle, task, htask, rfl, ?_⟩
  cases hrefused with
  | notFound hdecode' hregistry =>
    obtain rfl := Except.ok.inj (hdecode.symm.trans hdecode')
    refine hregistered.left handle task htask ?_
    by_contra hleft
    have hfound := (hregistered.registry task.id handle).mpr
      ⟨task, htask, rfl, by simpa using hleft⟩
    rw [hregistry] at hfound
    cases hfound

inductive AnsweredBy (engine : Engine Standard) (n : Node) (number : ℕ) (text : String)
    (request : Request) : ApiResponse → Prop
  | refused {response : Response} (hnumber : number = n.requests.length)
      (hrefused : LookupFails engine n text response) :
      AnsweredBy engine n number text request (.status response)
  | resumed {handle : ℕ} {reply : Waiter} {task : NodeTask} {answer : Option Reply}
      (hrequest : n.requests[number]? = some (.waiting text request handle reply))
      (htask : n.tasks[handle]? = some task)
      (hresponse : task.system.response reply = some answer) :
      AnsweredBy engine n number text request (request.response engine task.id answer)

theorem NodeChange.answeredBy {number : ℕ} {text : String} {response : ApiResponse}
    (h : NodeChange engine n e n' os)
    (hmem : NodeOutput.answered number text request response ∈ os) :
    AnsweredBy engine n number text request response := by
  cases h with
  | failed hrefused =>
    obtain ⟨rfl, rfl, rfl, rfl⟩ := NodeOutput.answered.inj (List.mem_singleton.mp hmem)
    exact .refused rfl hrefused
  | answered hrequest htask hresponse =>
    obtain ⟨rfl, rfl, rfl, rfl⟩ := NodeOutput.answered.inj (List.mem_singleton.mp hmem)
    exact .resumed hrequest htask hresponse
  | _ => simp at hmem

theorem gone_of_notFound {number : ℕ} {text : String} (hkept : Kept os n)
    (hregistered : Registered n) (hplaced : Placed engine n)
    (hcreated : (id, metadata) ∈ creations os) (hdecode : SessionId.decode engine text = .ok id)
    (hanswered : AnsweredBy engine n number text request (.status .notFound)) : Gone n id := by
  generalize hresponse : ApiResponse.status .notFound = response at hanswered
  cases hanswered with
  | refused _ hrefused =>
    obtain rfl := ApiResponse.status.inj hresponse
    exact gone_of_refused hkept hregistered hcreated hdecode hrefused
  | @resumed handle reply task answer hrequest htask hreply =>
    obtain ⟨task', htask', hasked⟩ := hplaced.asked number text request handle reply hrequest
    obtain rfl := Option.some.inj (htask.symm.trans htask')
    obtain ⟨task', htask', hdecode'⟩ := hplaced.named number _ text handle hrequest rfl
    obtain rfl := Option.some.inj (htask.symm.trans htask')
    obtain rfl := Except.ok.inj (hdecode.symm.trans hdecode')
    rcases hasked.response (hkept.attended htask) hreply with ⟨reply, rfl, hfits⟩ | ⟨rfl, hstopped⟩
    · exact absurd hresponse.symm (hfits.ne_notFound engine task.id)
    · exact ⟨handle, task, htask, rfl, hstopped⟩

theorem NodeChange.of_stepped {event : SystemEvent} {outputs : List Output}
    (h : NodeChange engine n e n' os) (hmem : NodeOutput.stepped handle event outputs ∈ os) :
    ∃ task r, n.tasks[handle]? = some task ∧ task.system.step event = some (r, outputs) := by
  cases h with
  | stepped htask hstep =>
    obtain ⟨rfl, rfl, rfl⟩ := NodeOutput.stepped.inj (List.mem_singleton.mp hmem)
    exact ⟨_, _, htask, hstep⟩
  | sent hrequest htask hstep =>
    obtain ⟨rfl, rfl, rfl⟩ := NodeOutput.stepped.inj (List.mem_singleton.mp hmem)
    exact ⟨_, _, htask, hstep⟩
  | _ => simp at hmem

/-- What is known of those who come for an id once its session has ended: as the request
`first` or a later one, or with a name from `fresh` on. -/
structure AfterEnd (engine : Engine Standard) (id : SessionId) (handle first fresh : ℕ)
    (os : List NodeOutput) (n : Node) : Prop where
  session : ∃ task, n.tasks[handle]? = some task ∧ task.id = id ∧ task.system.Shut fresh
  first_le : first ≤ n.requests.length
  unanswered : ∀ (number : ℕ) text request handle reply, first ≤ number →
    n.requests[number]? = some (.waiting text request handle reply) →
      SessionId.decode engine text = .ok id →
        ∃ task, n.tasks[handle]? = some task ∧ task.system.replies reply = none
  answers : ∀ number text request response, NodeOutput.answered number text request response ∈ os →
    first ≤ number → SessionId.decode engine text = .ok id → response = .status .notFound
  lookups : ∀ text response, NodeOutput.refused text response ∈ os →
    SessionId.decode engine text = .ok id → response = .notFound
  uploads : ∀ event outputs token response, NodeOutput.stepped handle event outputs ∈ os →
    Output.responded token response ∈ outputs → fresh ≤ token → response = .notFound

theorem LookupFails.of_decode {text : String} {response : Response}
    (h : LookupFails engine n text response) (hdecode : SessionId.decode engine text = .ok id) :
    response = .notFound := by
  cases h with
  | invalid hinvalid =>
    rw [hdecode] at hinvalid
    cases hinvalid
  | notFound => rfl

namespace AfterEnd
variable {first fresh : ℕ} {before : List NodeOutput}

theorem stopped (h : AfterEnd engine id handle first fresh before n) (hregistered : Registered n)
    {place : ℕ} (htask : n.tasks[place]? = some task) (hid : task.id = id) :
    task.system.session.running = false := by
  obtain ⟨ended, hended, hid', hshut⟩ := h.session
  obtain rfl := hregistered.distinct handle place ended task hended htask (hid'.trans hid.symm)
  obtain rfl := Option.some.inj (htask.symm.trans hended)
  exact hshut.stopped

theorem stopped_of_placed (h : AfterEnd engine id handle first fresh before n)
    (hregistered : Registered n) (hplaced : Placed engine n) {number place : ℕ} {text : String}
    {task' : RequestTask} (hrequest : n.requests[number]? = some task')
    (hplace : task'.place = some (text, place)) (htask : n.tasks[place]? = some task)
    (hdecode : SessionId.decode engine text = .ok id) :
    task.system.session.running = false := by
  obtain ⟨named, hnamed, hdecode'⟩ := hplaced.named number task' text place hrequest hplace
  obtain rfl := Option.some.inj (htask.symm.trans hnamed)
  exact h.stopped hregistered htask (Except.ok.inj (hdecode'.symm.trans hdecode))

theorem step_session (h : AfterEnd engine id handle first fresh before n)
    (hchange : NodeChange engine n e n' os') :
    ∃ task, n'.tasks[handle]? = some task ∧ task.id = id ∧ task.system.Shut fresh := by
  obtain ⟨task, htask, hid, hshut⟩ := h.session
  obtain ⟨task', htask', hid', hsame | ⟨event, outputs, hstep⟩⟩ := hchange.task htask
  · exact ⟨task', htask', hid'.trans hid, by rw [hsame]; exact hshut⟩
  · exact ⟨task', htask', hid'.trans hid, hshut.change (System.step_change hstep)⟩

theorem step_unanswered (h : AfterEnd engine id handle first fresh before n) (hkept : Kept os n)
    (hregistered : Registered n) (hplaced : Placed engine n)
    (hchange : NodeChange engine n e n' os') {number place : ℕ} {text : String}
    {reply : Waiter} (hle : first ≤ number)
    (hget : n'.requests[number]? = some (.waiting text request place reply))
    (hdecode : SessionId.decode engine text = .ok id) :
    ∃ task, n'.tasks[place]? = some task ∧ task.system.replies reply = none := by
  have stays (hrequest : n.requests[number]? = some (.waiting text request place reply)) :
      ∃ task, n'.tasks[place]? = some task ∧ task.system.replies reply = none := by
    obtain ⟨task, htask, hnone⟩ :=
      h.unanswered number text request place reply hle hrequest hdecode
    obtain ⟨task', htask', -, hsame | ⟨event, outputs, hstep⟩⟩ := hchange.task htask
    · exact ⟨task', htask', by rw [hsame]; exact hnone⟩
    · have hstopped := h.stopped_of_placed hregistered hplaced hrequest rfl htask hdecode
      exact ⟨task', htask', by rw [(System.stopped_step hstopped hstep).2]; exact hnone⟩
  cases hchange with
  | created | found | refused | dropped | stepped | closed | removed => exact stays hget
  | began | failed =>
    rcases Node.of_addRequest hget with heq | hold
    · cases heq
    · exact stays hold
  | answered | requestDropped =>
    rcases Node.of_setRequest hget with heq | hold
    · cases heq
    · exact stays hold
  | @sent sentNumber handle' text' request' task r outputs hrequest htask hstep =>
    rcases Node.of_setRequest hget with heq | hold
    · obtain ⟨rfl, rfl, rfl, rfl⟩ := RequestTask.waiting.inj heq
      refine ⟨{ task with system := r }, (Node.setTask_tasks htask _).trans (if_pos rfl), ?_⟩
      have hstopped := h.stopped_of_placed hregistered hplaced hrequest rfl htask hdecode
      show r.replies task.system.fresh = none
      rw [(System.stopped_step hstopped hstep).2]
      exact (hkept.attended htask).undrawn _ (Nat.le_refl _)
    · exact stays hold

theorem step_answers (h : AfterEnd engine id handle first fresh before n)
    (hregistered : Registered n) (hplaced : Placed engine n)
    (hchange : NodeChange engine n e n' os') {number : ℕ} {text : String}
    {response : ApiResponse} (hmem : NodeOutput.answered number text request response ∈ os')
    (hle : first ≤ number) (hdecode : SessionId.decode engine text = .ok id) :
    response = .status .notFound := by
  cases hchange.answeredBy hmem with
  | refused _ hrefused => rw [hrefused.of_decode hdecode]
  | @resumed place reply task answer hrequest htask hreply =>
    obtain ⟨task', htask', hnone⟩ :=
      h.unanswered number text request place reply hle hrequest hdecode
    obtain rfl := Option.some.inj (htask.symm.trans htask')
    have hstopped := h.stopped_of_placed hregistered hplaced hrequest rfl htask hdecode
    obtain rfl : answer = none := by
      simpa [System.response, hnone, System.replyHeld, hstopped, eq_comm] using hreply
    exact request.response_none engine task.id

theorem step_uploads (h : AfterEnd engine id handle first fresh before n)
    (hchange : NodeChange engine n e n' os') {event : SystemEvent} {outputs : List Output}
    {token : Token} {response : Response}
    (hmem : NodeOutput.stepped handle event outputs ∈ os')
    (hresponded : Output.responded token response ∈ outputs) (hle : fresh ≤ token) :
    response = .notFound := by
  obtain ⟨task, r, htask, hstep⟩ := hchange.of_stepped hmem
  obtain ⟨ended, hended, -, hshut⟩ := h.session
  obtain rfl := Option.some.inj (htask.symm.trans hended)
  exact hshut.responded (System.step_change hstep) hresponded hle

theorem step (h : AfterEnd engine id handle first fresh before n) (hkept : Kept os n)
    (hregistered : Registered n) (hplaced : Placed engine n)
    (hchange : NodeChange engine n e n' os') :
    AfterEnd engine id handle first fresh (before ++ os') n' where
  session := h.step_session hchange
  first_le := by
    refine Nat.le_trans h.first_le ?_
    cases hchange <;> simp [Node.create, Node.setTask, Node.setRequest, Node.addRequest]
  unanswered _ _ _ _ _ hle hget hdecode :=
    h.step_unanswered hkept hregistered hplaced hchange hle hget hdecode
  answers number text request response hmem hle hdecode := by
    rcases List.mem_append.mp hmem with hmem | hmem
    · exact h.answers number text request response hmem hle hdecode
    · exact h.step_answers hregistered hplaced hchange hmem hle hdecode
  lookups text response hmem hdecode := by
    rcases List.mem_append.mp hmem with hmem | hmem
    · exact h.lookups text response hmem hdecode
    · cases hchange with
      | refused hrefused =>
        obtain ⟨rfl, rfl⟩ := NodeOutput.refused.inj (List.mem_singleton.mp hmem)
        exact hrefused.of_decode hdecode
      | _ => simp at hmem
  uploads event outputs token response hmem hresponded hle := by
    rcases List.mem_append.mp hmem with hmem | hmem
    · exact h.uploads event outputs token response hmem hresponded hle
    · exact h.step_uploads hchange hmem hresponded hle

end AfterEnd

end Sessions

section Runs

theorem creation_unique {metadata' : String} (hkept : Kept os n) (hregistered : Registered n)
    (h : (id, metadata) ∈ creations os) (h' : (id, metadata') ∈ creations os) :
    metadata' = metadata := by
  have place {metadata : String} (h : (id, metadata) ∈ creations os) :
      ∃ (handle : ℕ) (task : NodeTask), n.tasks[handle]? = some task ∧ task.id = id ∧
        (creations os)[handle]? = some (id, metadata) := by
    obtain ⟨handle, hget⟩ := List.mem_iff_getElem?.mp h
    have hlt : handle < n.tasks.length := by
      rw [hkept.length]
      exact (List.getElem?_eq_some_iff.mp hget).1
    have htask : n.tasks[handle]? = some n.tasks[handle] := List.getElem?_eq_getElem hlt
    obtain ⟨_, hget', -⟩ := hkept.tasks handle _ htask
    exact ⟨handle, _, htask, congrArg Prod.fst (Option.some.inj (hget'.symm.trans hget)), hget⟩
  obtain ⟨handle, task, htask, hid, hget⟩ := place h
  obtain ⟨handle', task', htask', hid', hget'⟩ := place h'
  obtain rfl := hregistered.distinct handle handle' task task' htask htask' (hid.trans hid'.symm)
  exact congrArg Prod.snd (Option.some.inj (hget'.symm.trans hget))

theorem creations_mem_append (h : (id, metadata) ∈ creations os) :
    (id, metadata) ∈ creations (os ++ os') := by
  rw [creations_append]
  exact List.mem_append_left _ h

def Told (engine : Engine Standard) (os : List NodeOutput) (text encryptedMetadata url : String) :
    Prop :=
  ∃ id, SessionId.decode engine text = .ok id ∧
    url = "/api/v1/download/" ++ id.encode engine ++ "/content" ∧
    (id, encryptedMetadata) ∈ creations os

theorem told_of_change {number : ℕ} {text encryptedMetadata url : String} (hkept : Kept os n)
    (hplaced : Placed engine n) (hchange : NodeChange engine n e n' os')
    (hmem : NodeOutput.answered number text .downloadMeta (.metadata encryptedMetadata url) ∈ os') :
    Told engine os text encryptedMetadata url := by
  generalize hresponse : ApiResponse.metadata encryptedMetadata url = response at hmem
  cases hchange.answeredBy hmem with
  | refused => cases hresponse
  | @resumed handle reply task answer hrequest htask hreply =>
    obtain ⟨task', htask', hasked⟩ := hplaced.asked number text _ handle reply hrequest
    obtain rfl := Option.some.inj (htask.symm.trans htask')
    obtain ⟨task', htask', hdecode⟩ := hplaced.named number _ text handle hrequest rfl
    obtain rfl := Option.some.inj (htask.symm.trans htask')
    rcases hasked.response (hkept.attended htask) hreply with ⟨reply, rfl, hfits⟩ | ⟨rfl, -⟩
    · obtain rfl : reply = .metadata task.system.session.state.metadata := hfits
      obtain ⟨rfl, rfl⟩ := ApiResponse.metadata.inj hresponse
      exact ⟨task.id, hdecode, rfl, List.mem_of_getElem? (hkept.creation htask)⟩
    · cases hresponse

theorem told_of_path {number : ℕ} {text encryptedMetadata url : String}
    (hpath : (relayNode engine).Path NewIds .new tr n)
    (hmem : NodeOutput.answered number text .downloadMeta (.metadata encryptedMetadata url) ∈
      tr.outputs) : Told engine tr.outputs text encryptedMetadata url := by
  revert hmem
  refine hpath.history (P := fun tr _ => NodeOutput.answered number text .downloadMeta
    (.metadata encryptedMetadata url) ∈ tr.outputs →
      Told engine tr.outputs text encryptedMetadata url) ?_ ?_
  · simp
  · intro tr n e n' os hpath ih _ hstep hmem
    rw [EventMachine.Trace.outputs_append, EventMachine.Trace.outputs_single] at hmem ⊢
    have hbefore : Told engine tr.outputs text encryptedMetadata url := by
      rcases List.mem_append.mp hmem with hmem | hmem
      · exact ih hmem
      · exact told_of_change (Kept.of_path hpath) (Placed.of_path hpath)
          (Node.step_change hstep) hmem
    obtain ⟨id, hdecode, hurl, hcreated⟩ := hbefore
    exact ⟨id, hdecode, hurl, creations_mem_append hcreated⟩

/-- What `download_meta` answers are the metadata that were given with the creation of the one
session with the id of the path. -/
theorem metadata_are_the_created {number : ℕ} {text encryptedMetadata url : String}
    (hpath : (relayNode engine).Path NewIds .new tr n)
    (hmem : NodeOutput.answered number text .downloadMeta (.metadata encryptedMetadata url) ∈
      tr.outputs) :
    ∃ id, SessionId.decode engine text = .ok id ∧
      url = "/api/v1/download/" ++ id.encode engine ++ "/content" ∧
      ∀ metadata, (id, metadata) ∈ creations tr.outputs ↔ metadata = encryptedMetadata := by
  obtain ⟨id, hdecode, hurl, hcreated⟩ := told_of_path hpath hmem
  refine ⟨id, hdecode, hurl, fun metadata => ⟨fun h => ?_, fun h => h ▸ hcreated⟩⟩
  exact creation_unique (Kept.of_path hpath) (Registered.of_path hpath) hcreated h

def askedForFirst : List NodeEvent :=
  [.create firstId "a", .create secondId "b", .request "AQ~~" .downloadMeta, .requestSend 0,
    .session 0 .turn, .requestResume 0]

theorem metadata_are_the_created_two : ∃ tr n,
    ((relayNode Base64.standard).restrict NewIds).exec .new askedForFirst = some (tr, n) ∧
      ∃ id, SessionId.decode Base64.standard "AQ~~" = .ok id ∧
        "/api/v1/download/AQ~~/content" =
          "/api/v1/download/" ++ id.encode Base64.standard ++ "/content" ∧
        ∀ metadata, (id, metadata) ∈ creations tr.outputs ↔ metadata = "a" := by
  have hexec : ((relayNode Base64.standard).restrict NewIds).exec .new askedForFirst =
      some (_, _) := rfl
  exact ⟨_, _, hexec, metadata_are_the_created
    (EventMachine.Path.guarded_of_restrict (EventMachine.exec_path _ hexec))
    (List.mem_of_getElem? (i := 4) (rfl : _ = some (NodeOutput.answered 0 _ _ _)))⟩

/-- What those who come for an id from the node `n` on are told, once its session has ended: a
later lookup fails, or finds the session that has ended, which lets nobody in. -/
structure NotFoundFrom (engine : Engine Standard) (id : SessionId) (n : Node)
    (post : Trace NodeEvent NodeOutput) (last : Node) : Prop where
  requests : ∀ number text request response,
    NodeOutput.answered number text request response ∈ post.outputs → n.requests.length ≤ number →
      SessionId.decode engine text = .ok id → response = .status .notFound
  lookups : ∀ text response, NodeOutput.refused text response ∈ post.outputs →
    SessionId.decode engine text = .ok id → response = .notFound
  found : ∃ (handle : ℕ) (ended task : NodeTask), n.tasks[handle]? = some ended ∧
    last.tasks[handle]? = some task ∧
    (∀ text place, SessionId.decode engine text = .ok id → last.lookup engine text = .ok place →
      place = handle) ∧
    task.system.Shut ended.system.fresh ∧
    ∀ event outputs token response, NodeOutput.stepped handle event outputs ∈ post.outputs →
      Output.responded token response ∈ outputs → ended.system.fresh ≤ token →
        response = .notFound

inductive ToldNotFound (engine : Engine Standard) (id : SessionId) (n : Node)
    (os : List NodeOutput) : Prop
  | lookup {text : String} (hdecode : SessionId.decode engine text = .ok id)
      (hmem : NodeOutput.refused text .notFound ∈ os) : ToldNotFound engine id n os
  | request {number : ℕ} {text : String} {request : Request}
      (hdecode : SessionId.decode engine text = .ok id)
      (hmem : NodeOutput.answered number text request (.status .notFound) ∈ os) :
      ToldNotFound engine id n os
  | upload {handle : ℕ} {task : NodeTask} {event : SystemEvent} {outputs : List Output}
      {token : Token} (htask : n.tasks[handle]? = some task) (hid : task.id = id)
      (hmem : NodeOutput.stepped handle event outputs ∈ os)
      (hresponded : Output.responded token .notFound ∈ outputs) : ToldNotFound engine id n os

theorem gone_of_told (hpath : (relayNode engine).Path NewIds .new tr n)
    (hcreated : (id, metadata) ∈ creations tr.outputs) (hchange : NodeChange engine n e n' os)
    (htold : ToldNotFound engine id n os) : Gone n id := by
  have hkept := Kept.of_path hpath
  have hregistered := Registered.of_path hpath
  cases htold with
  | lookup hdecode hrefused =>
    cases hchange with
    | refused hrefused' =>
      obtain ⟨rfl, rfl⟩ := NodeOutput.refused.inj (List.mem_singleton.mp hrefused)
      exact gone_of_refused hkept hregistered hcreated hdecode hrefused'
    | _ => simp at hrefused
  | request hdecode hanswered =>
    exact gone_of_notFound hkept hregistered (Placed.of_path hpath) hcreated hdecode
      (hchange.answeredBy hanswered)
  | @upload handle task event outputs token htask hid hmem hresponded =>
    obtain ⟨task', r, htask', hstep⟩ := hchange.of_stepped hmem
    obtain rfl := Option.some.inj (htask.symm.trans htask')
    obtain ⟨metadata', -, hrun⟩ := hkept.tasks handle task htask
    exact ⟨handle, task, htask, hid, notFound_stopped hrun hstep hresponded⟩

/-- Once someone who came for a session was told 404, everyone who comes for it later is: the
requests that wait for one reply and the uploads are answered 404, and no download or websocket
is let in. -/
theorem not_found_is_final {post : Trace NodeEvent NodeOutput} {last : Node}
    (hpath : (relayNode engine).Path NewIds .new tr n)
    (hcreated : (id, metadata) ∈ creations tr.outputs) (hstep : n.step engine e = some (n', os))
    (htold : ToldNotFound engine id n os)
    (hpost : (relayNode engine).Path NewIds n' post last) :
    NotFoundFrom engine id n' post last := by
  have hchange := Node.step_change hstep
  have hgone := gone_of_told hpath hcreated hchange htold
  have hguard : NewIds n e := by
    cases hchange with
    | created => cases htold <;> simp at *
    | _ => trivial
  have hbefore : (relayNode engine).Path NewIds .new (tr ++ [(e, os)]) n' :=
    .snoc hpath hguard hstep
  obtain ⟨handle, ended, hended, hid, hstopped⟩ := hgone.step hchange
  have hshut := System.Shut.of_stopped ((Kept.of_path hbefore).attended hended) hstopped
  have h := hpost.history (P := fun post last =>
    (relayNode engine).Path NewIds .new (tr ++ [(e, os)] ++ post) last ∧
      AfterEnd engine id handle n'.requests.length ended.system.fresh post.outputs last) ?_ ?_
  · obtain ⟨hall, hafter⟩ := h
    refine ⟨hafter.answers, hafter.lookups, ?_⟩
    obtain ⟨task, htask, hid', hshut'⟩ := hafter.session
    refine ⟨handle, ended, task, hended, htask, fun text place hdecode hlookup => ?_, hshut',
      hafter.uploads⟩
    obtain ⟨id', hdecode', hregistry⟩ := Node.lookup_ok hlookup
    obtain rfl := Except.ok.inj (hdecode.symm.trans hdecode')
    have hregistered := Registered.of_path hall
    obtain ⟨other, hother, hid'', -⟩ := (hregistered.registry id place).mp hregistry
    exact hregistered.distinct place handle other task hother htask (hid''.trans hid'.symm)
  · refine ⟨by simpa using hbefore, ⟨ended, hended, hid, hshut⟩, Nat.le_refl _, ?_, by simp,
      by simp, by simp⟩
    intro number text request handle reply hle hget
    have hlt := (List.getElem?_eq_some_iff.mp hget).1
    exact absurd hlt (Nat.not_lt_of_le hle)
  · intro post last e last' os' _ ih hguard hstep
    obtain ⟨hall, hafter⟩ := ih
    refine ⟨by rw [← List.append_assoc]; exact .snoc hall hguard hstep, ?_⟩
    rw [EventMachine.Trace.outputs_append, EventMachine.Trace.outputs_single]
    exact hafter.step (Kept.of_path hall) (Registered.of_path hall) (Placed.of_path hall)
      (Node.step_change hstep)

def finishedTwice : List NodeEvent :=
  [.create firstId "a", .request "AQ~~" .finishDownload, .requestSend 0, .session 0 .turn,
    .requestResume 0, .request "AQ~~" .finishDownload, .requestSend 1]

def tooLate : List NodeEvent :=
  [.lookup "AQ~~", .session 0 (.upload 0), .session 0 (.uploadResume 2), .remove 0,
    .request "AQ~~" .finishDownload, .lookup "AQ~~"]

theorem not_found_is_final_finished : ∃ tr n n' os post last,
    ((relayNode Base64.standard).restrict NewIds).exec .new finishedTwice = some (tr, n) ∧
      n.step Base64.standard (.requestResume 1) = some (n', os) ∧
      ((relayNode Base64.standard).restrict NewIds).exec n' tooLate = some (post, last) ∧
      NodeOutput.stepped 0 (.uploadResume 2) [.responded 2 .notFound] ∈ post.outputs ∧
      NotFoundFrom Base64.standard firstId n' post last := by
  have hexec : ((relayNode Base64.standard).restrict NewIds).exec .new finishedTwice =
      some (_, _) := rfl
  refine ⟨_, _, _, _, _, _, hexec, rfl, rfl, List.mem_of_getElem? (i := 2) rfl, ?_⟩
  exact not_found_is_final
    (EventMachine.Path.guarded_of_restrict (EventMachine.exec_path _ hexec))
    (List.mem_of_getElem? (i := 0) rfl) (e := .requestResume 1) rfl
    (.request (rfl : SessionId.decode _ "AQ~~" = .ok firstId) (List.mem_singleton_self _))
    (EventMachine.Path.guarded_of_restrict (EventMachine.exec_path tooLate rfl))

end Runs

end Glopfile.Relay

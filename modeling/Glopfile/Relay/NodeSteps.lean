import Glopfile.Relay.Node
import Glopfile.Relay.UploadCalls

/-!
# What each step of a node does

A step creates a session, takes a step of one, moves a request, or takes a session out.
-/

namespace Glopfile.Relay

open Base64 (Engine Standard)
open EventMachine (Trace)

variable {engine : Engine Standard} {n n' : Node} {e : NodeEvent} {os : List NodeOutput}

inductive LookupFails (engine : Engine Standard) (n : Node) (text : String) : Response → Prop
  | invalid {error : InvalidSessionId} (hdecode : SessionId.decode engine text = .error error) :
      LookupFails engine n text (.invalid "invalid id")
  | notFound {id : SessionId} (hdecode : SessionId.decode engine text = .ok id)
      (hregistry : n.registry id = none) : LookupFails engine n text .notFound

inductive NodeChange (engine : Engine Standard) (n : Node) :
    NodeEvent → Node → List NodeOutput → Prop
  | created {id : SessionId} {metadata : String} :
      NodeChange engine n (.create id metadata) (n.create id metadata)
        [.created id metadata (createFileResponse engine id)]
  | found {text : String} {handle : ℕ} :
      NodeChange engine n (.lookup text) { n with clones := handle :: n.clones } [.found text]
  | refused {text : String} {response : Response} (hrefused : LookupFails engine n text response) :
      NodeChange engine n (.lookup text) n [.refused text response]
  | dropped {handle : ℕ} {clones : List ℕ} :
      NodeChange engine n (.drop handle) { n with clones := clones } []
  | stepped {handle : ℕ} {event : SystemEvent} {task : NodeTask} {r : System}
      {outputs : List Output} (htask : n.tasks[handle]? = some task)
      (hstep : task.system.step event = some (r, outputs)) :
      NodeChange engine n (.session handle event) (n.setTask handle { task with system := r })
        [.stepped handle event outputs]
  | began {text : String} {request : Request} {id : SessionId} {handle : ℕ}
      (hdecode : SessionId.decode engine text = .ok id) (hregistry : n.registry id = some handle) :
      NodeChange engine n (.request text request) (n.addRequest (.found text request handle)) []
  | failed {text : String} {request : Request} {response : Response}
      (hrefused : LookupFails engine n text response) :
      NodeChange engine n (.request text request) (n.addRequest .ended)
        [.answered n.requests.length text request (.status response)]
  | sent {number handle : ℕ} {text : String} {request : Request} {task : NodeTask} {r : System}
      {outputs : List Output}
      (hrequest : n.requests[number]? = some (.found text request handle))
      (htask : n.tasks[handle]? = some task)
      (hstep : task.system.step request.event = some (r, outputs)) :
      NodeChange engine n (.requestSend number)
        ((n.setTask handle { task with system := r }).setRequest number
          (.waiting text request handle task.system.fresh))
        [.stepped handle request.event outputs]
  | answered {number handle : ℕ} {text : String} {request : Request} {reply : Waiter}
      {task : NodeTask} {answer : Option Reply}
      (hrequest : n.requests[number]? = some (.waiting text request handle reply))
      (htask : n.tasks[handle]? = some task)
      (hresponse : task.system.response reply = some answer) :
      NodeChange engine n (.requestResume number) (n.setRequest number .ended)
        [.answered number text request (request.response engine task.id answer)]
  | requestDropped {number : ℕ} :
      NodeChange engine n (.requestDrop number) (n.setRequest number .ended) []
  | closed {handle : ℕ} {task : NodeTask} (htask : n.tasks[handle]? = some task)
      (hrunning : task.system.session.running = true)
      (hregistry : n.registry task.id ≠ some handle) :
      NodeChange engine n (.recvNone handle) (n.setTask handle { task with closed := true }) []
  | removed {handle : ℕ} {task : NodeTask} (htask : n.tasks[handle]? = some task)
      (hends : task.system.session.running = false ∨ task.closed = true)
      (hleft : task.left = false) :
      NodeChange engine n (.remove handle)
        { n.setTask handle { task with left := true } with
          registry := Function.update n.registry task.id none } []

namespace Node

theorem lookup_error {text : String} {response : Response}
    (h : n.lookup engine text = .error response) : LookupFails engine n text response := by
  unfold lookup at h
  split at h
  · next error hdecode =>
    obtain rfl := Except.error.inj h
    exact .invalid hdecode
  · next id hdecode =>
    split at h
    · next hregistry =>
      obtain rfl := Except.error.inj h
      exact .notFound hdecode hregistry
    · cases h

theorem lookup_ok {text : String} {handle : ℕ} (h : n.lookup engine text = .ok handle) :
    ∃ id, SessionId.decode engine text = .ok id ∧ n.registry id = some handle := by
  unfold lookup at h
  split at h
  · cases h
  · next id hdecode =>
    split at h
    · cases h
    · next found hregistry =>
      obtain rfl := Except.ok.inj h
      exact ⟨id, hdecode, hregistry⟩

theorem stepSession_eq {handle : ℕ} {event : SystemEvent}
    (h : n.stepSession handle event = some (n', os)) :
    ∃ task r outputs, n.tasks[handle]? = some task ∧
      task.system.step event = some (r, outputs) ∧
      n' = n.setTask handle { task with system := r } ∧ os = [.stepped handle event outputs] := by
  unfold stepSession at h
  split at h
  · cases h
  · next task htask =>
    obtain ⟨⟨r, outputs⟩, hstep, heq⟩ := Option.map_eq_some_iff.mp h
    obtain ⟨rfl, rfl⟩ := Prod.mk.inj heq
    exact ⟨task, r, outputs, htask, hstep, rfl, rfl⟩

theorem requestSend_change {number : ℕ} (h : n.requestSend number = some (n', os)) :
    NodeChange engine n (.requestSend number) n' os := by
  unfold requestSend at h
  split at h
  · next text request handle hrequest =>
    split at h
    · cases h
    · next task htask =>
      obtain ⟨⟨m, os'⟩, hsession, heq⟩ := Option.map_eq_some_iff.mp h
      obtain ⟨rfl, rfl⟩ := Prod.mk.inj heq
      obtain ⟨task', r, outputs, htask', hstep, rfl, rfl⟩ := stepSession_eq hsession
      obtain rfl := Option.some.inj (htask.symm.trans htask')
      exact .sent hrequest htask hstep
  · cases h

theorem requestResume_change {number : ℕ} (h : n.requestResume engine number = some (n', os)) :
    NodeChange engine n (.requestResume number) n' os := by
  unfold requestResume at h
  split at h
  · next text request handle reply hrequest =>
    split at h
    · cases h
    · next task htask =>
      obtain ⟨answer, hresponse, heq⟩ := Option.map_eq_some_iff.mp h
      obtain ⟨rfl, rfl⟩ := Prod.mk.inj heq
      exact .answered hrequest htask hresponse
  · cases h

theorem recvNone_change {handle : ℕ} (h : n.recvNone handle = some (n', os)) :
    NodeChange engine n (.recvNone handle) n' os := by
  unfold recvNone at h
  split at h
  · cases h
  · next task htask =>
    split_ifs at h with hends
    obtain ⟨hrunning, -, -, hsenders⟩ := hends
    obtain ⟨rfl, rfl⟩ := Prod.mk.inj (Option.some.inj h)
    refine .closed htask hrunning fun hregistry => ?_
    simp [sendersLeft, hregistry] at hsenders

theorem remove_change {handle : ℕ} (h : n.remove handle = some (n', os)) :
    NodeChange engine n (.remove handle) n' os := by
  unfold remove at h
  split at h
  · cases h
  · next task htask =>
    split_ifs at h with hends
    obtain ⟨rfl, rfl⟩ := Prod.mk.inj (Option.some.inj h)
    exact .removed htask hends.1 hends.2

theorem step_change (h : n.step engine e = some (n', os)) : NodeChange engine n e n' os := by
  cases e with
  | create id metadata =>
    obtain ⟨rfl, rfl⟩ := Prod.mk.inj (Option.some.inj h)
    exact .created
  | lookup text =>
    simp only [step] at h
    split at h
    · next response hlookup =>
      obtain ⟨rfl, rfl⟩ := Prod.mk.inj (Option.some.inj h)
      exact .refused (lookup_error hlookup)
    · obtain ⟨rfl, rfl⟩ := Prod.mk.inj (Option.some.inj h)
      exact .found
  | drop handle =>
    simp only [step] at h
    split_ifs at h
    obtain ⟨rfl, rfl⟩ := Prod.mk.inj (Option.some.inj h)
    exact .dropped
  | session handle event =>
    simp only [step] at h
    split_ifs at h
    obtain ⟨task, r, outputs, htask, hstep, rfl, rfl⟩ := stepSession_eq h
    exact .stepped htask hstep
  | request text request =>
    simp only [step, Node.request] at h
    split at h
    · next response hlookup =>
      obtain ⟨rfl, rfl⟩ := Prod.mk.inj (Option.some.inj h)
      exact .failed (lookup_error hlookup)
    · next handle hlookup =>
      obtain ⟨rfl, rfl⟩ := Prod.mk.inj (Option.some.inj h)
      obtain ⟨id, hdecode, hregistry⟩ := lookup_ok hlookup
      exact .began hdecode hregistry
  | requestSend number => exact requestSend_change h
  | requestResume number => exact requestResume_change h
  | requestDrop number =>
    simp only [step] at h
    split at h
    · cases h
    · cases h
    · obtain ⟨rfl, rfl⟩ := Prod.mk.inj (Option.some.inj h)
      exact .requestDropped
  | recvNone handle => exact recvNone_change h
  | remove handle => exact remove_change h

section Tasks
variable {handle : ℕ} {task : NodeTask}

theorem setTask_tasks {other : NodeTask} (htask : n.tasks[handle]? = some other) (k : ℕ) :
    (n.setTask handle task).tasks[k]? = if handle = k then some task else n.tasks[k]? := by
  have hlt : handle < n.tasks.length := (List.getElem?_eq_some_iff.mp htask).1
  rw [setTask, List.getElem?_set]
  simp only [hlt, if_true]

theorem create_tasks (id : SessionId) (metadata : String) (k : ℕ) :
    (n.create id metadata).tasks[k]? = if n.tasks.length = k then
      some ⟨id, .spawn metadata, false, false⟩ else n.tasks[k]? := by
  rw [create, List.getElem?_append]
  split_ifs with hlt heq heq
  · exact absurd hlt (by rw [heq]; exact Nat.lt_irrefl _)
  · rfl
  · simp [heq]
  · rw [List.getElem?_eq_none (Nat.le_of_not_lt hlt)]
    exact List.getElem?_eq_none (by simp; omega)

end Tasks

section Requests
variable {number k : ℕ} {request request' : RequestTask}

theorem of_setRequest (h : (n.setRequest number request).requests[k]? = some request') :
    request' = request ∨ n.requests[k]? = some request' := by
  rw [setRequest, List.getElem?_set] at h
  split_ifs at h
  · exact .inl (Option.some.inj h).symm
  · exact .inr h

theorem of_addRequest (h : (n.addRequest request).requests[k]? = some request') :
    request' = request ∨ n.requests[k]? = some request' := by
  rw [addRequest, List.getElem?_append] at h
  split_ifs at h
  · exact .inr h
  · exact .inl (List.mem_singleton.mp (List.mem_of_getElem? h))

end Requests

end Node

theorem NodeChange.task (h : NodeChange engine n e n' os) {handle : ℕ} {task : NodeTask}
    (htask : n.tasks[handle]? = some task) :
    ∃ task', n'.tasks[handle]? = some task' ∧ task'.id = task.id ∧
      (task'.system = task.system ∨
        ∃ event outputs, task.system.step event = some (task'.system, outputs)) := by
  have set {other other' : NodeTask} {k : ℕ} (hother : n.tasks[k]? = some other)
      (hid : other'.id = other.id) (hsystem : other'.system = other.system ∨
        ∃ event outputs, other.system.step event = some (other'.system, outputs)) :
      ∃ task', (n.setTask k other').tasks[handle]? = some task' ∧ task'.id = task.id ∧
        (task'.system = task.system ∨
          ∃ event outputs, task.system.step event = some (task'.system, outputs)) := by
    rw [Node.setTask_tasks hother]
    split_ifs with hk
    · subst hk
      obtain rfl := Option.some.inj (htask.symm.trans hother)
      exact ⟨other', rfl, hid, hsystem⟩
    · exact ⟨task, htask, rfl, .inl rfl⟩
  cases h with
  | created =>
    have hne : n.tasks.length ≠ handle := by
      have hlt := (List.getElem?_eq_some_iff.mp htask).1
      omega
    rw [Node.create_tasks, if_neg hne]
    exact ⟨task, htask, rfl, .inl rfl⟩
  | found | refused | dropped | began | failed | answered | requestDropped =>
    exact ⟨task, htask, rfl, .inl rfl⟩
  | stepped hother hstep => exact set hother rfl (.inr ⟨_, _, hstep⟩)
  | sent _ hother hstep => exact set hother rfl (.inr ⟨_, _, hstep⟩)
  | closed hother => exact set hother rfl (.inl rfl)
  | removed hother => exact set hother rfl (.inl rfl)

end Glopfile.Relay

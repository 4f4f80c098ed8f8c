import Glopfile.Relay.NodeSteps

/-!
# The registry of a node

Each session of a node runs as it would alone. As long as no id is generated twice, an id is
registered from the creation of its session to the end of the session's task, the task ends
with a command that ends the session and never for want of senders, and a request that comes
after a 404 is answered 404.
-/

namespace Glopfile.Relay

open Base64 (Engine Standard)
open EventMachine (Trace)

variable {engine : Engine Standard} {n n' : Node} {e : NodeEvent} {os os' : List NodeOutput}
  {tr : Trace NodeEvent NodeOutput} {id : SessionId} {metadata : String}

def NodeOutput.creation : NodeOutput → Option (SessionId × String)
  | .created id metadata _ => some (id, metadata)
  | _ => none

def NodeOutput.stepOf (handle : ℕ) : NodeOutput → Option (SystemEvent × List Output)
  | .stepped handle' event outputs => if handle' = handle then some (event, outputs) else none
  | _ => none

def creations (os : List NodeOutput) : List (SessionId × String) :=
  os.filterMap NodeOutput.creation

def sessionTrace (handle : ℕ) (os : List NodeOutput) : Trace SystemEvent Output :=
  os.filterMap (NodeOutput.stepOf handle)

theorem creations_append : creations (os ++ os') = creations os ++ creations os' :=
  List.filterMap_append

theorem sessionTrace_append (handle : ℕ) :
    sessionTrace handle (os ++ os') = sessionTrace handle os ++ sessionTrace handle os' :=
  List.filterMap_append

/-! ### Sessions run alone -/

structure Kept (os : List NodeOutput) (n : Node) : Prop where
  tasks : ∀ handle task, n.tasks[handle]? = some task →
    ∃ metadata, (creations os)[handle]? = some (task.id, metadata) ∧
      (relaySystem metadata).Run (sessionTrace handle os) task.system
  length : n.tasks.length = (creations os).length
  ahead : ∀ handle, n.tasks.length ≤ handle → sessionTrace handle os = []

namespace Kept

theorem quiet (h : Kept os n) (hcreations : creations os' = [])
    (htrace : ∀ handle, sessionTrace handle os' = [])
    (htasks : ∀ handle : ℕ, n'.tasks[handle]?.map (fun task => (task.id, task.system)) =
      n.tasks[handle]?.map fun task => (task.id, task.system))
    (hlength : n'.tasks.length = n.tasks.length) : Kept (os ++ os') n' where
  tasks handle task htask := by
    have hbefore := htasks handle
    rw [htask, Option.map_some] at hbefore
    obtain ⟨before, hget, hview⟩ := Option.map_eq_some_iff.mp hbefore.symm
    obtain ⟨hid, hsystem⟩ := Prod.mk.inj hview
    rw [creations_append, hcreations, List.append_nil, sessionTrace_append, htrace,
      List.append_nil, ← hid, ← hsystem]
    exact h.tasks handle before hget
  length := by rw [creations_append, hcreations, List.append_nil, hlength, h.length]
  ahead handle hle := by
    rw [sessionTrace_append, htrace, List.append_nil]
    exact h.ahead handle (hlength ▸ hle)

theorem created (h : Kept os n) (response : ApiResponse) :
    Kept (os ++ [.created id metadata response]) (n.create id metadata) := by
  have htrace (handle : ℕ) :
      sessionTrace handle (os ++ [.created id metadata response]) = sessionTrace handle os := by
    rw [sessionTrace_append]
    exact List.append_nil _
  have hcreations : creations (os ++ [.created id metadata response]) =
      creations os ++ [(id, metadata)] := creations_append
  refine ⟨fun handle task htask => ?_, ?_, fun handle hle => ?_⟩
  · rw [Node.create_tasks] at htask
    rw [htrace, hcreations]
    split_ifs at htask with heq
    · obtain rfl := Option.some.inj htask
      refine ⟨metadata, ?_, ?_⟩
      · rw [← heq, h.length]
        simp
      · rw [h.ahead handle (Nat.le_of_eq heq)]
        exact .refl
    · obtain ⟨metadata', hget, hrun⟩ := h.tasks handle task htask
      refine ⟨metadata', ?_, hrun⟩
      rw [List.getElem?_append_left (List.getElem?_eq_some_iff.mp hget).1, hget]
  · simp [Node.create, hcreations, h.length]
  · rw [htrace]
    refine h.ahead handle (Nat.le_trans ?_ hle)
    simp [Node.create]

theorem stepped {handle : ℕ} {task : NodeTask} {event : SystemEvent} {r : System}
    {outputs : List Output} (h : Kept os n) (htask : n.tasks[handle]? = some task)
    (hstep : task.system.step event = some (r, outputs))
    (htasks : n'.tasks = (n.setTask handle { task with system := r }).tasks) :
    Kept (os ++ [.stepped handle event outputs]) n' := by
  have hcreations : creations (os ++ [.stepped handle event outputs]) = creations os := by
    rw [creations_append]
    exact List.append_nil _
  have htrace (k : ℕ) : sessionTrace k (os ++ [.stepped handle event outputs]) =
      sessionTrace k os ++ if handle = k then [(event, outputs)] else [] := by
    rw [sessionTrace_append]
    by_cases hk : handle = k <;> simp [sessionTrace, NodeOutput.stepOf, hk]
  have hlength : n'.tasks.length = n.tasks.length := by
    rw [htasks]
    simp [Node.setTask]
  refine ⟨fun k task' htask' => ?_, by rw [hcreations, hlength, h.length], fun k hle => ?_⟩
  · rw [htasks, Node.setTask_tasks htask] at htask'
    rw [hcreations, htrace]
    split_ifs at htask' ⊢ with hk
    · subst hk
      obtain rfl := Option.some.inj htask'
      obtain ⟨metadata, hget, hrun⟩ := h.tasks handle task htask
      exact ⟨metadata, hget, .snoc hrun trivial hstep⟩
    · rw [List.append_nil]
      exact h.tasks k task' htask'
  · have hne : handle ≠ k := by
      have hlt := (List.getElem?_eq_some_iff.mp htask).1
      omega
    rw [htrace, if_neg hne, List.append_nil]
    exact h.ahead k (hlength ▸ hle)

theorem step (h : Kept os n) (hchange : NodeChange engine n e n' os') : Kept (os ++ os') n' := by
  have same {os' : List NodeOutput} (hcreations : creations os' = [])
      (htrace : ∀ handle, sessionTrace handle os' = []) (htasks : n'.tasks = n.tasks) :
      Kept (os ++ os') n' :=
    h.quiet hcreations htrace (fun handle => by rw [htasks]) (by rw [htasks])
  have marked {handle : ℕ} {task task' : NodeTask} (htask : n.tasks[handle]? = some task)
      (htasks : n'.tasks = (n.setTask handle task').tasks) (hid : task'.id = task.id)
      (hsystem : task'.system = task.system) : Kept (os ++ []) n' := by
    refine h.quiet rfl (fun _ => rfl) (fun k => ?_) (by rw [htasks]; simp [Node.setTask])
    rw [htasks, Node.setTask_tasks htask]
    split_ifs with hk
    · subst hk
      simp [htask, hid, hsystem]
    · rfl
  cases hchange with
  | created => exact h.created _
  | found | refused | dropped | began | failed | answered | requestDropped =>
    exact same rfl (fun _ => rfl) rfl
  | stepped htask hstep => exact h.stepped htask hstep rfl
  | sent _ htask hstep => exact h.stepped htask hstep rfl
  | closed htask => exact marked htask rfl rfl rfl
  | removed htask => exact marked htask rfl rfl rfl

theorem of_path {guard : Node → NodeEvent → Prop}
    (hpath : (relayNode engine).Path guard .new tr n) : Kept tr.outputs n := by
  refine hpath.history (P := fun tr n => Kept tr.outputs n) ?_ ?_
  · exact ⟨fun handle task htask => by simp [Node.new] at htask, rfl, fun _ _ => rfl⟩
  · intro tr n e n' os _ ih _ hstep
    simpa using ih.step (Node.step_change hstep)

end Kept

/-- However the sessions of a node are interleaved, each of them runs as it does alone, from the
metadata it was created with: nothing that is known of the runs of one session is lost among
others. -/
theorem sessions_run_alone (hrun : (relayNode engine).Run tr n) :
    n.tasks.length = (creations tr.outputs).length ∧
      ∀ handle task, n.tasks[handle]? = some task →
        ∃ metadata, (creations tr.outputs)[handle]? = some (task.id, metadata) ∧
          (relaySystem metadata).Run (sessionTrace handle tr.outputs) task.system := by
  have h := Kept.of_path hrun
  exact ⟨h.length, h.tasks⟩

def firstId : SessionId := ⟨[1], by decide⟩

def secondId : SessionId := ⟨[2], by decide⟩

def twoSessions : List NodeEvent :=
  [.create firstId "a", .create secondId "b", .request "AQ~~" .downloadMeta,
    .request "Ag~~" .finishDownload, .requestSend 1, .requestSend 0, .session 1 .turn,
    .session 0 .turn, .remove 1, .requestResume 0]

theorem sessions_run_alone_two : ∃ tr n,
    (relayNode Base64.standard).exec .new twoSessions = some (tr, n) ∧
      n.tasks.length = 2 ∧
      ∀ handle task, n.tasks[handle]? = some task →
        ∃ metadata, (creations tr.outputs)[handle]? = some (task.id, metadata) ∧
          (relaySystem metadata).Run (sessionTrace handle tr.outputs) task.system := by
  have hexec : (relayNode Base64.standard).exec .new twoSessions = some (_, _) := rfl
  exact ⟨_, _, hexec, rfl, (sessions_run_alone (EventMachine.exec_run _ hexec)).2⟩

/-! ### Who is registered -/

/-- The registry says which tasks are still there. -/
structure Registered (n : Node) : Prop where
  registry : ∀ id handle, n.registry id = some handle ↔
    ∃ task, n.tasks[handle]? = some task ∧ task.id = id ∧ task.left = false
  distinct : ∀ (handle handle' : ℕ) (task task' : NodeTask), n.tasks[handle]? = some task →
    n.tasks[handle']? = some task' → task.id = task'.id → handle = handle'
  left : ∀ (handle : ℕ) task, n.tasks[handle]? = some task → task.left = true →
    task.system.session.running = false
  closed : ∀ (handle : ℕ) task, n.tasks[handle]? = some task → task.closed = false

namespace Registered

theorem created (h : Registered n) (hnew : ∀ task ∈ n.tasks, task.id ≠ id) :
    Registered (n.create id metadata) := by
  have hnew' (handle : ℕ) (task : NodeTask) (htask : n.tasks[handle]? = some task) : task.id ≠ id :=
    hnew task (List.mem_of_getElem? htask)
  refine ⟨fun id' handle => ?_, fun handle handle' task task' htask htask' heq => ?_,
    fun handle task htask hleft => ?_, fun handle task htask => ?_⟩
  · have hregistry : (n.create id metadata).registry id' =
        if id' = id then some n.tasks.length else n.registry id' := by
      simp only [Node.create, Function.update_apply]
    rw [hregistry, Node.create_tasks]
    by_cases hid : id' = id
    · subst hid
      rw [if_pos rfl]
      by_cases hhandle : n.tasks.length = handle
      · simp [hhandle]
      · simp only [Option.some.injEq, hhandle, if_false, false_iff]
        rintro ⟨task, htask, htaskId, -⟩
        exact hnew' handle task htask htaskId
    · rw [if_neg hid, h.registry]
      by_cases hhandle : n.tasks.length = handle
      · have hne : id ≠ id' := fun heq => hid heq.symm
        simp [hhandle, hne]
      · simp [hhandle]
  · rw [Node.create_tasks] at htask htask'
    split_ifs at htask htask' with hhandle hhandle' hhandle'
    · exact hhandle.symm.trans hhandle'
    · obtain rfl := Option.some.inj htask
      exact absurd heq.symm (hnew' handle' task' htask')
    · obtain rfl := Option.some.inj htask'
      exact absurd heq (hnew' handle task htask)
    · exact h.distinct handle handle' task task' htask htask' heq
  · rw [Node.create_tasks] at htask
    split_ifs at htask
    · obtain rfl := Option.some.inj htask
      cases hleft
    · exact h.left handle task htask hleft
  · rw [Node.create_tasks] at htask
    split_ifs at htask
    · obtain rfl := Option.some.inj htask
      rfl
    · exact h.closed handle task htask

theorem stepped {handle : ℕ} {task : NodeTask} {event : SystemEvent} {r : System}
    {outputs : List Output} (h : Registered n) (htask : n.tasks[handle]? = some task)
    (hstep : task.system.step event = some (r, outputs)) (hregistry : n'.registry = n.registry)
    (htasks : n'.tasks = (n.setTask handle { task with system := r }).tasks) :
    Registered n' := by
  have hget (k : ℕ) (task' : NodeTask) (htask' : n'.tasks[k]? = some task') :
      ∃ before, n.tasks[k]? = some before ∧ task'.id = before.id ∧
        task'.left = before.left ∧ task'.closed = before.closed ∧
        (before.system.session.running = false → task'.system.session.running = false) := by
    rw [htasks, Node.setTask_tasks htask] at htask'
    split_ifs at htask' with hk
    · subst hk
      obtain rfl := Option.some.inj htask'
      refine ⟨task, htask, rfl, rfl, rfl, fun hstopped => ?_⟩
      by_contra hrunning
      have := (System.step_change hstep).running (by simpa using hrunning)
      rw [hstopped] at this
      cases this
    · exact ⟨task', htask', rfl, rfl, rfl, id⟩
  refine ⟨fun id k => ?_, fun k k' a b ha hb heq => ?_, fun k a ha hleft => ?_, fun k a ha => ?_⟩
  · rw [hregistry, h.registry, htasks, Node.setTask_tasks htask]
    split_ifs with hk
    · subst hk
      simp [htask]
    · rfl
  · obtain ⟨a', ha', hida, -⟩ := hget k a ha
    obtain ⟨b', hb', hidb, -⟩ := hget k' b hb
    exact h.distinct k k' a' b' ha' hb' (by rw [← hida, ← hidb, heq])
  · obtain ⟨a', ha', -, hleft', -, hstops⟩ := hget k a ha
    exact hstops (h.left k a' ha' (hleft'.symm.trans hleft))
  · obtain ⟨a', ha', -, -, hclosed, -⟩ := hget k a ha
    rw [hclosed]
    exact h.closed k a' ha'

theorem removed {handle : ℕ} {task : NodeTask} (h : Registered n)
    (htask : n.tasks[handle]? = some task)
    (hends : task.system.session.running = false ∨ task.closed = true) :
    Registered { n.setTask handle { task with left := true } with
      registry := Function.update n.registry task.id none } := by
  have hget (k : ℕ) : (n.setTask handle { task with left := true }).tasks[k]? =
      if handle = k then some { task with left := true } else n.tasks[k]? :=
    Node.setTask_tasks htask k
  refine ⟨fun id k => ?_, fun k k' a b ha hb heq => ?_, fun k a ha hleft => ?_, fun k a ha => ?_⟩
  · show Function.update n.registry task.id none id = some k ↔ _
    rw [Function.update_apply, hget k]
    by_cases hk : handle = k
    · subst hk
      by_cases hid : id = task.id
      · simp [hid]
      · have hne : task.id ≠ id := fun heq => hid heq.symm
        rw [if_neg hid, h.registry]
        simp [htask, hne]
    · rw [if_neg hk]
      by_cases hid : id = task.id
      · subst hid
        simp only [if_true, reduceCtorEq, false_iff]
        rintro ⟨other, hother, hid, -⟩
        exact hk (h.distinct handle k task other htask hother hid.symm)
      · rw [if_neg hid, h.registry]
  · rw [hget] at ha hb
    have hid (k : ℕ) (a : NodeTask) (ha : (if handle = k then some { task with left := true }
        else n.tasks[k]?) = some a) : ∃ a', n.tasks[k]? = some a' ∧ a.id = a'.id := by
      split_ifs at ha with hk
      · subst hk
        obtain rfl := Option.some.inj ha
        exact ⟨task, htask, rfl⟩
      · exact ⟨a, ha, rfl⟩
    obtain ⟨a', ha', hida⟩ := hid k a ha
    obtain ⟨b', hb', hidb⟩ := hid k' b hb
    exact h.distinct k k' a' b' ha' hb' (by rw [← hida, ← hidb, heq])
  · rw [hget] at ha
    split_ifs at ha with hk
    · obtain rfl := Option.some.inj ha
      rcases hends with hstopped | hclosed
      · exact hstopped
      · rw [h.closed handle task htask] at hclosed
        cases hclosed
    · exact h.left k a ha hleft
  · rw [hget] at ha
    split_ifs at ha with hk
    · obtain rfl := Option.some.inj ha
      exact h.closed handle task htask
    · exact h.closed k a ha

/-- While a session runs its registry entry is a sender, so that `recv` does not return `None`. -/
theorem not_closed {handle : ℕ} {task : NodeTask} (h : Registered n)
    (htask : n.tasks[handle]? = some task) (hrunning : task.system.session.running = true) :
    n.registry task.id = some handle := by
  refine (h.registry task.id handle).mpr ⟨task, htask, rfl, ?_⟩
  by_contra hleft
  have hstopped := h.left handle task htask (by simpa using hleft)
  rw [hrunning] at hstopped
  cases hstopped

theorem step (h : Registered n) (hguard : NewIds n e) (hchange : NodeChange engine n e n' os) :
    Registered n' := by
  cases hchange with
  | created => exact h.created hguard
  | found | refused | dropped | began | failed | answered | requestDropped =>
    exact ⟨h.registry, h.distinct, h.left, h.closed⟩
  | stepped htask hstep => exact h.stepped htask hstep rfl rfl
  | sent _ htask hstep => exact h.stepped htask hstep rfl rfl
  | closed htask hrunning hregistry => exact absurd (h.not_closed htask hrunning) hregistry
  | removed htask hends => exact h.removed htask hends

theorem of_path (hpath : (relayNode engine).Path NewIds .new tr n) : Registered n := by
  refine hpath.invariant (P := Registered) ?_ ?_
  · exact ⟨fun id handle => by simp [Node.new], by simp [Node.new], by simp [Node.new],
      by simp [Node.new]⟩
  · intro n e n' os ih hguard hstep
    exact ih.step hguard (Node.step_change hstep)

end Registered

/-! ### What ends a session -/

def Command.endsDownload : Command → Bool
  | .finishDownload _ | .disconnected _ (.downloader true) => true
  | _ => false

section Ends
variable {s : State} {c : Command} {r r' : System} {log : Trace SystemEvent Output}
  {event : SystemEvent} {outputs : List Output}

theorem handle_endsDownload
    (h : (s.handle c).state.downloader = .finished ∨ (s.handle c).flow = .brk)
    (hbefore : s.downloader ≠ .finished) : c.endsDownload = true := by
  have hc := s.handled c
  generalize s.handle c = o at hc h
  cases hc with
  | finishTold | finishIdle | finishHeld => rfl
  | @downloaderLeft _ completed =>
    cases completed with
    | true => rfl
    | false => simp at h
  | uploaderDone _ hfinished => exact absurd hfinished hbefore
  | released | downloads | relays => simp at h
  | signals hsame => simp [hsame.1, hbefore] at h
  | _ => simp [hbefore] at h

def DownloadEnded (log : Trace SystemEvent Output) : Prop :=
  ∃ event c effects, (event, [.handled c effects]) ∈ log ∧ c.endsDownload = true

theorem downloadEnded_of_run (hrun : (relaySystem metadata).Run log r) :
    r.session.running = false ∨ r.session.state.downloader = .finished → DownloadEnded log := by
  refine hrun.history (P := fun log r => r.session.running = false ∨
    r.session.state.downloader = .finished → DownloadEnded log) ?_ ?_
  · intro h
    rcases h with h | h <;> cases h
  · intro log r event r' outputs _ ih _ hstep h
    have earlier (hbefore : r.session.running = false ∨ r.session.state.downloader = .finished) :
        DownloadEnded (log ++ [(event, outputs)]) := by
      obtain ⟨event', c, effects, hmem, hc⟩ := ih hbefore
      exact ⟨event', c, effects, List.mem_append_left _ hmem, hc⟩
    cases System.step_change hstep with
    | turn hqueue hsession =>
      obtain ⟨hrunning, rfl, rfl⟩ := Session.step_eq_some.mp hsession
      rw [System.deliverAll_session] at h
      by_cases hbefore : r.session.state.downloader = .finished
      · exact earlier (.inr hbefore)
      · refine ⟨_, _, _, List.mem_append_right _ (List.mem_singleton_self _),
          handle_endsDownload (h.symm.imp_right fun hstopped => ?_) hbefore⟩
        cases hflow : (r.session.state.handle _).flow with
        | cont => simp [hflow] at hstopped
        | brk => rfl
    | _ => exact earlier h

end Ends

/-- An id leads to its session from the creation until the task has left, and nowhere else; a
task leaves only after a downloader said that it has the whole file, and never because all its
senders are gone. -/
theorem registry_is_exact (hpath : (relayNode engine).Path NewIds .new tr n) :
    (∀ id handle, n.registry id = some handle ↔
      ∃ task, n.tasks[handle]? = some task ∧ task.id = id ∧ task.left = false) ∧
    (∀ handle task, n.tasks[handle]? = some task → task.left = true →
      task.system.session.running = false ∧ DownloadEnded (sessionTrace handle tr.outputs)) ∧
    ∀ handle, n.recvNone handle = none := by
  have h := Registered.of_path hpath
  refine ⟨h.registry, fun handle task htask hleft => ?_, fun handle => ?_⟩
  · obtain ⟨metadata, -, hrun⟩ := (Kept.of_path hpath).tasks handle task htask
    have hstopped := h.left handle task htask hleft
    exact ⟨hstopped, downloadEnded_of_run hrun (.inl hstopped)⟩
  · rw [Option.eq_none_iff_forall_ne_some]
    rintro ⟨n', os⟩ hclosed
    have hchange : NodeChange engine n (.recvNone handle) n' os := Node.recvNone_change hclosed
    cases hchange with
    | closed htask hrunning hregistry => exact hregistry (h.not_closed htask hrunning)

def finishedAndRemoved : List NodeEvent :=
  [.create firstId "a", .request "AQ~~" .finishDownload, .requestSend 0, .session 0 .turn,
    .remove 0]

theorem registry_is_exact_finished : ∃ tr n task,
    ((relayNode Base64.standard).restrict NewIds).exec .new finishedAndRemoved = some (tr, n) ∧
      n.tasks[0]? = some task ∧ n.registry firstId = none ∧
      DownloadEnded (sessionTrace 0 tr.outputs) := by
  have hexec : ((relayNode Base64.standard).restrict NewIds).exec .new finishedAndRemoved =
      some (_, _) := rfl
  have h := registry_is_exact (EventMachine.Path.guarded_of_restrict
    (EventMachine.exec_path _ hexec))
  exact ⟨_, _, _, hexec, rfl, rfl, (h.2.1 0 _ rfl rfl).2⟩

end Glopfile.Relay
